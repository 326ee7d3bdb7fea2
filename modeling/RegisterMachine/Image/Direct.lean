import RegisterMachine.Image
import RegisterMachine.Listing
import RegisterMachine.State

namespace RegisterMachine.Image

def load : Image → Except Error State
  | bytes data => State.ofImage data
  | sequence items =>
    if 4096 < items.length then .error (.fault (.imageTooLarge items.length))
    else match bytesOfValues items with
      | .ok data => State.ofImage data.toArray
      | .error .itemRange => .error (.image .storedRange)
      | .error e => .error (.image e)
  | text content =>
    if 4096 < content.length then .error (.fault (.imageTooLarge content.length))
    else .error (.image .storedText)
  | integer _ => .error (.image (.unsized .integer))
  | truth _ => .error (.image (.unsized .truth))
  | real => .error (.image (.unsized .real))
  | nothing => .error (.image (.unsized .nothing))

def bytesBetween (image : Image) (start stop : Int) : Except ImageError (List UInt8) :=
  match image with
  | bytes data => .ok (itemsBetween data start stop)
  | sequence items => bytesOfValues (itemsBetween items.toArray start stop)
  | text _ => .error .unencodedText
  | integer _ => .error (.noItems .integer)
  | truth _ => .error (.noItems .truth)
  | real => .error (.noItems .real)
  | nothing => .error (.noItems .nothing)

def fetch (image : Image) (ip : Int) : Except Error (List UInt8) :=
  if 4096 ≤ ip then .error (.fault (.pastEnd ip))
  else match image.bytesBetween ip (ip + 4) with
    | .ok window => .ok (fillWindow window)
    | .error e => .error (.image e)

/-- The listing of the instructions from `ip` on that begin before `stop`. It ends where no
instruction is found, and fails where a window cannot be read. -/
def listing (image : Image) (ip stop : Int) : Except Error (List ListingLine) :=
  if ip < stop then
    match image.fetch ip >>= Instruction.decode with
    | .ok i => do
      let rest ← image.listing (ip + i.size) stop
      return ⟨ip, i⟩ :: rest
    | .error (.fault _) => .ok []
    | .error e => .error e
  else .ok []
termination_by (stop - ip).toNat
decreasing_by
  have := i.size_pos
  omega

def disassemble (image : Image) (start stop : Int) : Except Error String := do
  return listingText (← image.listing start stop)

end RegisterMachine.Image
