import RegisterMachine.Text.Blank
import RegisterMachine.Text.DecimalDigit
import RegisterMachine.Text.Numeral

namespace RegisterMachine

def isAsciiBlank (c : Char) : Bool :=
  c = ' ' || (9 ≤ c.toNat && c.toNat ≤ 13)

/-- Replaces digits of other scripts by ASCII digits and blanks outside ASCII by `' '`; any other
character outside ASCII becomes one that no integer contains. -/
def plainChar (c : Char) : Char :=
  if c.toNat < 127 then c
  else if isBlank c then ' '
  else match decimalValue? c with
    | some d => Nat.digitChar d
    | none => '?'

def digitValues? : List Char → Option (List Nat)
  | [] => none
  | [c] => if c.isDigit then some [c.toNat - 48] else none
  | c :: '_' :: rest =>
    if c.isDigit then (digitValues? rest).map ((c.toNat - 48) :: ·) else none
  | c :: rest => if c.isDigit then (digitValues? rest).map ((c.toNat - 48) :: ·) else none

def readInteger? (text : String) : Option Int :=
  let chars := text.toList.map plainChar
  let core := ((chars.dropWhile isAsciiBlank).reverse.dropWhile isAsciiBlank).reverse
  let (negative, digits) := match core with
    | '-' :: rest => (true, rest)
    | '+' :: rest => (false, rest)
    | _ => (false, core)
  match digitValues? digits with
  | none => none
  | some values =>
    if values.length ≤ maxDigits then
      let n : Nat := values.foldl (fun n d => 10 * n + d) 0
      some (if negative then -n else n)
    else none

end RegisterMachine
