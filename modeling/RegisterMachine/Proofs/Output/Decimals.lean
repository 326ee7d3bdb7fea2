import RegisterMachine.Proofs.Step.Table
import RegisterMachine.Proofs.Text.Integers

namespace RegisterMachine

structure IsCanonical (digits : List Char) : Prop where
  each : ∀ c ∈ digits, c.isDigit = true
  nonempty : digits ≠ []
  leading : digits.head? = some '0' → digits = ['0']

/-- The decimal of the signed view of a word: there is a sign if the highest bit is set. -/
inductive WordNumeral (v : Int) : List Char → Prop
  | clear {digits : List Char} (bit : v.toNat.testBit 31 = false) (canonical : IsCanonical digits)
    (number : (Nat.ofDigitChars 10 digits 0 : Int) = v) : WordNumeral v digits
  | set {digits : List Char} (bit : v.toNat.testBit 31 = true) (canonical : IsCanonical digits)
    (number : (Nat.ofDigitChars 10 digits 0 : Int) = 4294967296 - v) : WordNumeral v ('-' :: digits)

section

variable {c : Char} {digits text : List Char} {v w : Int}

theorem toDigits_of_isDigit (digit : c.isDigit = true) : Nat.toDigits 10 (c.toNat - 48) = [c] := by
  have bounds := bounds_of_isDigit digit
  have small : c.toNat - 48 < 10 := by omega
  have code : (c.toNat - 48).digitChar.toNat = c.toNat := by
    rw [Nat.toNat_digitChar_of_lt_ten small]
    omega
  rw [Nat.toDigits_of_lt_base small, Char.toNat_inj.mp code]

theorem toDigits_ofDigitChars {n : Nat} (positive : 0 < n)
    (each : ∀ c ∈ digits, c.isDigit = true) :
    Nat.toDigits 10 (Nat.ofDigitChars 10 digits n) = Nat.toDigits 10 n ++ digits := by
  -- A digit after a number that is not zero is the last digit of the number that both make.
  induction digits generalizing n with
  | nil => rw [List.append_nil]; rfl
  | cons c digits ih =>
    rw [List.forall_mem_cons] at each
    have bounds := bounds_of_isDigit each.1
    have last := toDigits_of_isDigit each.1
    have zero : '0'.toNat = 48 := rfl
    have split := Nat.toDigits_append_toDigits (by decide : 1 < 10) positive
      (by omega : c.toNat - 48 < 10)
    rw [Nat.ofDigitChars_cons, zero, ih (by omega) each.2, ← split, last, List.append_assoc,
      List.singleton_append]

namespace IsCanonical

theorem toDigits_eq (canonical : IsCanonical digits) :
    Nat.toDigits 10 (Nat.ofDigitChars 10 digits 0) = digits := by
  cases digits with
  | nil => exact absurd rfl canonical.nonempty
  | cons c digits =>
    obtain ⟨first, others⟩ := List.forall_mem_cons.mp canonical.each
    have single := toDigits_of_isDigit first
    by_cases zero : c = '0'
    · subst zero
      rw [canonical.leading rfl]
      rfl
    · have bounds := bounds_of_isDigit first
      have other : c.toNat ≠ 48 := by
        intro same
        exact zero (Char.toNat_inj.mp same)
      have head : 10 * 0 + (c.toNat - '0'.toNat) = c.toNat - 48 := by
        rw [Nat.mul_zero, Nat.zero_add]
        rfl
      rw [Nat.ofDigitChars_cons, head, toDigits_ofDigitChars (by omega) others, single,
        List.singleton_append]

end IsCanonical

theorem head?_toDigits (n : Nat) :
    (Nat.toDigits 10 n).head? = some '0' → n = 0 := by
  induction n using Nat.strongRecOn with
  | ind n ih =>
    intro leading
    rw [Nat.toDigits_eq_if (by decide)] at leading
    split at leading
    · exact Nat.digitChar_eq_zero.mp (Option.some.inj leading)
    · rw [List.head?_append, Option.or_eq_some_iff] at leading
      rcases leading with leading | ⟨empty, -⟩
      · have zero := ih (n / 10) (by omega) leading
        omega
      · exact absurd (List.head?_eq_none_iff.mp empty) Nat.toDigits_ne_nil

theorem isCanonical_toDigits (n : Nat) : IsCanonical (Nat.toDigits 10 n) where
  each := isDigit_of_mem_toDigits n
  nonempty := Nat.toDigits_ne_nil
  leading zero := by
    rw [head?_toDigits n zero]
    rfl

theorem isCanonical_iff {n : Nat} :
    IsCanonical digits ∧ Nat.ofDigitChars 10 digits 0 = n ↔ digits = Nat.toDigits 10 n := by
  constructor
  · rintro ⟨canonical, rfl⟩
    exact canonical.toDigits_eq.symm
  · rintro rfl
    exact ⟨isCanonical_toDigits n, Nat.ofDigitChars_toDigits (by decide) (by decide)⟩

theorem wordNumeral_iff (lower : 0 ≤ v) (upper : v < 4294967296) :
    WordNumeral v text ↔ text = (outputNumber v).toList := by
  have bit := testBit_word lower upper
  rw [outputNumber, toSigned_word lower upper]
  by_cases high : 2147483648 ≤ v
  · have negative : ¬ v < 2147483648 := by omega
    have sign : ¬ 0 ≤ v - 4294967296 := by omega
    have magnitude : (-(v - 4294967296)).toNat = (4294967296 - v).toNat := by omega
    have mark : "-".toList = ['-'] := rfl
    rw [if_neg negative, Int.toString_eq_repr, Int.repr_eq_if, if_neg sign, String.toList_append,
      Nat.toList_repr, magnitude, mark, List.singleton_append]
    constructor
    · intro numeral
      cases numeral with
      | clear clear => simp [bit, high] at clear
      | set _ canonical number =>
        have digits := isCanonical_iff.mp ⟨canonical, rfl⟩
        rw [digits, ← number]
        rfl
    · rintro rfl
      have digits := isCanonical_iff.mpr (rfl : _ = Nat.toDigits 10 (4294967296 - v).toNat)
      refine .set (by simp [bit, high]) digits.1 ?_
      rw [digits.2]
      omega
  · have small : v < 2147483648 := by omega
    rw [if_pos small, Int.toString_eq_repr, Int.repr_eq_if, if_pos lower, Nat.toList_repr]
    constructor
    · intro numeral
      cases numeral with
      | clear _ canonical number =>
        have digits := isCanonical_iff.mp ⟨canonical, rfl⟩
        rw [digits, ← number]
        rfl
      | set set => simp [bit, high] at set
    · rintro rfl
      have digits := isCanonical_iff.mpr (rfl : _ = Nat.toDigits 10 v.toNat)
      refine .clear (by simp [bit, high]) digits.1 ?_
      rw [digits.2]
      omega

theorem wordNumeral_outputNumber (lower : 0 ≤ v) (upper : v < 4294967296) :
    WordNumeral v (outputNumber v).toList :=
  (wordNumeral_iff lower upper).mpr rfl

theorem readInteger?_numeral (lower : 0 ≤ v) (upper : v < 4294967296)
    (numeral : WordNumeral v text) : readInteger? (String.ofList text) = some (toSigned v) := by
  have bit := testBit_word lower upper
  have short {digits : List Char} (canonical : IsCanonical digits)
      (bound : Nat.ofDigitChars 10 digits 0 < 10000000000) : digits.length ≤ maxDigits := by
    rw [← canonical.toDigits_eq]
    exact length_toDigits_le_maxDigits.mpr (lt_numeralLimit bound)
  rw [toSigned_word lower upper]
  cases numeral with
  | clear clear canonical number =>
    have small : v < 2147483648 := by simpa [bit] using clear
    have read := readInteger?_digits canonical.each canonical.nonempty (short canonical (by omega))
    rw [read.1, number, if_pos small]
  | set set canonical number =>
    have high : ¬ v < 2147483648 := by simpa [bit] using set
    have read := readInteger?_digits canonical.each canonical.nonempty (short canonical (by omega))
    rw [read.2, number, if_neg high]
    congr 1
    omega

end

end RegisterMachine
