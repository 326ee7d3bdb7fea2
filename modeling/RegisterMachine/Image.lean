import RegisterMachine.Error

namespace RegisterMachine

inductive Value
  | integer (n : Int)
  | truth (b : Bool)
  | real
  | text
  | nothing
  | sequence
  | mapping
  deriving DecidableEq, Repr

def Value.kind : Value → ValueKind
  | integer _ => .integer
  | truth _ => .truth
  | real => .real
  | text => .text
  | nothing => .nothing
  | sequence => .sequence
  | mapping => .mapping

def Value.byte : Value → Except ImageError UInt8
  | integer n => if 0 ≤ n ∧ n < 256 then .ok n.toNat.toUInt8 else .error .itemRange
  | truth b => .ok (if b then 1 else 0)
  | v => .error (.itemKind v.kind)

/-- The bytes of a sequence; the first item that is no byte decides the error. -/
def bytesOfValues : List Value → Except ImageError (List UInt8)
  | [] => .ok []
  | v :: vs => do
    let b ← v.byte
    let bs ← bytesOfValues vs
    return b :: bs

inductive Image
  | bytes (data : Array UInt8)
  | sequence (items : List Value)
  | text (content : String)
  | integer (n : Int)
  | truth (b : Bool)
  | real
  | nothing
  deriving DecidableEq, Repr

namespace Image

def toBytes : Image → Except ImageError (Array UInt8)
  | bytes data => .ok data
  | sequence items => List.toArray <$> bytesOfValues items
  | text _ => .error .unencodedText
  | integer _ => .error (.number .integer)
  | truth _ => .error (.number .truth)
  | real => .error (.notBytes .real)
  | nothing => .error (.notBytes .nothing)

end Image

end RegisterMachine
