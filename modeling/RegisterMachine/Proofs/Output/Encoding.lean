import RegisterMachine.Handlers

namespace RegisterMachine

/-- A character below 256 in UTF-8. -/
def characterBytes (code : Nat) : List UInt8 :=
  if code < 128 then [code.toUInt8] else [(192 + code / 64).toUInt8, (128 + code % 64).toUInt8]

/-- A number in decimal, one byte to a digit, after a sign if it is negative. -/
def decimalBytes (x : Int) : List UInt8 :=
  (if x < 0 then [45] else []) ++ (Nat.toDigits 10 x.natAbs).map fun c => c.toNat.toUInt8

theorem utf8EncodeChar_of_lt {c : Char} (low : c.toNat < 256) :
    String.utf8EncodeChar c = characterBytes c.toNat := by
  change c.val.toNat < 256 at low
  change _ = characterBytes c.val.toNat
  unfold String.utf8EncodeChar characterBytes
  by_cases ascii : c.val.toNat < 128
  · have first : c.val.toNat ≤ 0x7f := by omega
    simp only [first, ascii, ↓reduceIte]
  · have first : ¬ c.val.toNat ≤ 0x7f := by omega
    have second : c.val.toNat ≤ 0x7ff := by omega
    have high : c.val.toNat / 64 % 0x20 + 0xc0 = 192 + c.val.toNat / 64 := by omega
    have rest : c.val.toNat % 0x40 + 0x80 = 128 + c.val.toNat % 64 := by omega
    simp only [first, second, ascii, high, rest, ↓reduceIte]

theorem textBytes_of_ascii {text : List Char} (ascii : ∀ c ∈ text, c.toNat < 128) :
    textBytes text = text.map fun c => c.toNat.toUInt8 := by
  induction text with
  | nil => rfl
  | cons c text ih =>
    have first := ascii c List.mem_cons_self
    have rest := ih fun d member => ascii d (List.mem_cons_of_mem _ member)
    have bytes : String.utf8EncodeChar c = [c.toNat.toUInt8] := by
      rw [utf8EncodeChar_of_lt (by omega), characterBytes, if_pos first]
    simp only [textBytes] at rest ⊢
    rw [List.flatMap_cons, bytes, rest, List.map_cons, List.singleton_append]

theorem outputChar_toNat (value : Int) : (outputChar value).toNat = (value % 256).toNat := by
  have valid : (value % 256).toNat.isValidChar := by
    left
    omega
  rw [outputChar, Char.ofNat, dif_pos valid]
  rfl

theorem textBytes_outputChar (value : Int) :
    textBytes [outputChar value] = characterBytes (value % 256).toNat := by
  have low : (outputChar value).toNat < 256 := by
    rw [outputChar_toNat]
    omega
  rw [← outputChar_toNat, ← utf8EncodeChar_of_lt low]
  simp [textBytes]

theorem toList_repr_ascii (n : Nat) : ∀ c ∈ n.repr.toList, c.toNat < 128 := by
  intro c member
  rw [Nat.toList_repr] at member
  have digit := Nat.isDigit_of_mem_toDigits (by decide) (by decide) member
  have bounds := Char.isDigit_iff_toNat.mp digit
  have last : '9'.toNat = 57 := rfl
  omega

theorem textBytes_toString (x : Int) : textBytes (toString x).toList = decimalBytes x := by
  rw [Int.toString_eq_repr, Int.repr_eq_if]
  by_cases negative : x < 0
  · have sign : ¬ 0 ≤ x := by omega
    have magnitude : (-x).toNat = x.natAbs := by omega
    have ascii : ∀ c ∈ "-".toList ++ x.natAbs.repr.toList, c.toNat < 128 := by
      intro c member
      rcases List.mem_append.mp member with member | member
      · obtain rfl : c = '-' := by simpa using member
        decide
      · exact toList_repr_ascii _ c member
    rw [if_neg sign, magnitude, String.toList_append, textBytes_of_ascii ascii, List.map_append,
      Nat.toList_repr, decimalBytes, if_pos negative]
    rfl
  · have sign : 0 ≤ x := by omega
    have magnitude : x.toNat = x.natAbs := by omega
    rw [if_pos sign, magnitude, textBytes_of_ascii (toList_repr_ascii _), Nat.toList_repr,
      decimalBytes, if_neg negative, List.nil_append]

end RegisterMachine
