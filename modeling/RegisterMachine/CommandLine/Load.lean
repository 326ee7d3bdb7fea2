import RegisterMachine.CommandLine.Report
import RegisterMachine.Text.HexBytes

namespace RegisterMachine.CommandLine

def inlineImage (text : String) : Except Verdict (Array UInt8) :=
  match readHexBytes text with
  | .ok bytes => .ok bytes.toArray
  | .error position => .error (.usage (.badHex position))

def fileImage (files : FileSystem) (path : String) : Except Verdict (Array UInt8) :=
  if path.contains '\x00' then .error (.usage (.imageNotFound path))
  else match files.locate (plainPath path) with
    | .error .nameTooLong => .error (.aborted (.imagePath (plainPath path)))
    | .error _ => .error (.usage (.imageNotFound path))
    | .ok location => match files.node? location with
      | some (.file content) => .ok content
      | _ => .error (.usage (.imageNotFound path))

/-- The path of the image; an empty one counts as none. -/
def Options.imagePath? (o : Options) : Option String := o.image?.filter (!·.isEmpty)

def Options.bound (o : Options) : Except Verdict Nat :=
  match o.maxSteps with
  | .blank => .error (.aborted .blankBound)
  | .given n => if n < 0 then .error (.usage .negativeBound) else .ok n.toNat

/-- The step bound and the image of a session. There must be exactly one image, and the bound is
checked before the image is read. -/
def Options.load (o : Options) (files : FileSystem) : Except Verdict (Nat × Array UInt8) :=
  match o.imagePath?, o.hex? with
  | none, none => .error (.usage .noImage)
  | some _, some _ => .error (.usage .twoImages)
  | none, some hex => do
    let bound ← o.bound
    match hex with
    | .given text => return (bound, ← inlineImage text)
    | .blank => throw (.aborted .blankHex)
  | some path, none => do
    let bound ← o.bound
    return (bound, ← fileImage files path)

end RegisterMachine.CommandLine
