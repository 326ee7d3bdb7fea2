import RegisterMachine.Text.Blank

namespace RegisterMachine

def hexValue? (c : Char) : Option Nat :=
  if '0' ≤ c ∧ c ≤ '9' then some (c.toNat - 48)
  else if 'a' ≤ c ∧ c ≤ 'f' then some (c.toNat - 87)
  else if 'A' ≤ c ∧ c ≤ 'F' then some (c.toNat - 55)
  else none

def hexPairs : List Char → List UInt8
  | high :: low :: rest =>
    (16 * (hexValue? high).getD 0 + (hexValue? low).getD 0).toUInt8 :: hexPairs rest
  | _ => []

/-- The position at which unblanked digits cannot be read: the first character outside ASCII, else
the first that is no digit, else the end if a digit lacks its partner. -/
def hexFault? (digits : List Char) : Option Nat :=
  (digits.findIdx? fun c => 128 ≤ c.toNat).or <|
    (digits.findIdx? fun c => (hexValue? c).isNone).or <|
      if digits.length % 2 = 1 then some digits.length else none

def unblanked (text : String) : List Char := text.toList.filter (!isBlank ·)

def readHexBytes (text : String) : Except Nat (List UInt8) :=
  let digits := unblanked text
  match hexFault? digits with
  | some position => .error position
  | none => .ok (hexPairs digits)

end RegisterMachine
