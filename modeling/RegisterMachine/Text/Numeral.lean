namespace RegisterMachine

/-- The largest number of decimal digits of an integer that is read or written. -/
def maxDigits : Nat := 4300

/-- The least number that has more digits. -/
def numeralLimit : Nat := Nat.pow 10 maxDigits

theorem lt_numeralLimit {n : Nat} (small : n < 10000000000) : n < numeralLimit := by
  have below (k : Nat) (many : 10 ≤ k) : n < Nat.pow 10 k := by
    have large : Nat.pow 10 10 ≤ Nat.pow 10 k := Nat.pow_le_pow_right (by decide) many
    exact Nat.lt_of_lt_of_le small large
  unfold numeralLimit
  exact below maxDigits (by decide)

/-- Whether an integer can be written in decimal. There is no such limit in hexadecimal. -/
def isWritable (x : Int) : Bool := x.natAbs < numeralLimit

theorem isWritable_iff {x : Int} : isWritable x = true ↔ x.natAbs < numeralLimit :=
  decide_eq_true_iff

theorem isWritable_of_lt {x : Int} (lower : -10000000000 < x) (upper : x < 10000000000) :
    isWritable x = true :=
  isWritable_iff.mpr (lt_numeralLimit (by omega))

theorem isWritable_byte (b : UInt8) : isWritable b.toNat = true := by
  have bound := b.toNat_lt
  exact isWritable_of_lt (by omega) (by omega)

def hexNumeral (width : Nat) (x : Int) : String :=
  let sign := if x < 0 then ['-', '0', 'x'] else ['0', 'x']
  let digits := Nat.toDigits 16 x.natAbs
  let fill := List.replicate (width - sign.length - digits.length) '0'
  String.ofList (sign ++ fill ++ digits)

def addressText (x : Int) : String := hexNumeral 6 x

def contentText (x : Int) : String := hexNumeral 0 x

def hexPair (b : UInt8) : List Char :=
  [Nat.digitChar (b.toNat / 16), Nat.digitChar (b.toNat % 16)]

def spacedHex (bytes : List UInt8) : String :=
  " ".intercalate (bytes.map fun b => String.ofList (hexPair b))

def padRight (width : Nat) (text : String) : String :=
  text ++ String.ofList (List.replicate (width - text.length) ' ')

end RegisterMachine
