import RegisterMachine.Instruction

namespace RegisterMachine

/-- The position in `size` bytes that a bound names: negative bounds count from the end, and
bounds outside are moved to the nearest end. -/
def clampedPosition (size : Nat) (bound : Int) : Nat :=
  if 0 ≤ bound then min bound.toNat size else (bound + size).toNat

def itemsBetween {α : Type} (items : Array α) (start stop : Int) : List α :=
  (items.extract (clampedPosition items.size start) (clampedPosition items.size stop)).toList

def fillWindow (bytes : List UInt8) : List UInt8 :=
  bytes ++ List.replicate (4 - bytes.length) 0

def fetch (bytes : Array UInt8) (ip : Int) : Except Error (List UInt8) :=
  if 4096 ≤ ip then .error (.fault (.pastEnd ip))
  else .ok (fillWindow (itemsBetween bytes ip (ip + 4)))

def instructionAt (bytes : Array UInt8) (ip : Int) : Except Error Instruction :=
  fetch bytes ip >>= Instruction.decode

structure ListingLine where
  address : Int
  instruction : Instruction
  deriving DecidableEq, Repr

def ListingLine.text (l : ListingLine) : String :=
  s!"{addressText l.address}: {padRight 12 (spacedHex l.instruction.encode)} {l.instruction.text}"

def listing (bytes : Array UInt8) (ip stop : Int) : List ListingLine :=
  if ip < stop then
    match instructionAt bytes ip with
    | .ok i => ⟨ip, i⟩ :: listing bytes (ip + i.size) stop
    | .error _ => []
  else []
termination_by (stop - ip).toNat
decreasing_by
  have := i.size_pos
  omega

def listingText (lines : List ListingLine) : String :=
  "\n".intercalate (lines.map ListingLine.text)

def disassemble (bytes : Array UInt8) (start stop : Int) : String :=
  listingText (listing bytes start stop)

end RegisterMachine
