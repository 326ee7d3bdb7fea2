import Mathlib.Data.Int.Bitwise
import RegisterMachine.Word

namespace RegisterMachine

theorem ldiff_two_pow_sub_one (m n : Nat) :
    Nat.ldiff (2 ^ n - 1) m = 2 ^ n - (m % 2 ^ n + 1) := by
  have bound : m % 2 ^ n < 2 ^ n := Nat.mod_lt _ (Nat.two_pow_pos n)
  apply Nat.eq_of_testBit_eq
  intro i
  rw [Nat.testBit_ldiff, Nat.testBit_two_pow_sub_one, Nat.testBit_two_pow_sub_succ bound,
    Nat.testBit_mod_two_pow]
  by_cases inside : i < n <;> simp [inside]

theorem land_two_pow_sub_one (x : Int) (n : Nat) :
    Int.land x ((2 ^ n - 1 : Nat) : Int) = x % 2 ^ n := by
  cases x with
  | ofNat m =>
    change ((m &&& (2 ^ n - 1) : Nat) : Int) = (m : Int) % 2 ^ n
    rw [Nat.and_two_pow_sub_one_eq_mod]
    push_cast
    rfl
  | negSucc m =>
    have positive : (0 : Int) < 2 ^ n := by exact_mod_cast Nat.two_pow_pos n
    have bound : m % 2 ^ n < 2 ^ n := Nat.mod_lt _ (Nat.two_pow_pos n)
    change ((Nat.ldiff (2 ^ n - 1) m : Nat) : Int) = _
    rw [ldiff_two_pow_sub_one, Int.negSucc_emod m positive, Nat.cast_sub bound]
    push_cast
    omega

theorem land_two_pow {x : Int} (lower : 0 ≤ x) (n : Nat) :
    Int.land x ((2 ^ n : Nat) : Int) = (x.toNat.testBit n).toNat * (2 ^ n : Nat) := by
  obtain ⟨m, rfl⟩ := Int.eq_ofNat_of_zero_le lower
  change ((m &&& 2 ^ n : Nat) : Int) = _
  rw [Nat.and_two_pow, Int.toNat_natCast, Nat.cast_mul]

theorem toWord_eq_land (x : Int) : toWord x = Int.land x wordMask :=
  (land_two_pow_sub_one x 32).symm

theorem land_signBit (x : Int) :
    Int.land (toWord x) 2147483648 = if 2147483648 ≤ toWord x then 2147483648 else 0 := by
  have masked := land_two_pow (toWord_nonneg x) 31
  rw [testBit_word (toWord_nonneg x) (toWord_lt x)] at masked
  change Int.land (toWord x) 2147483648 = _ at masked
  rw [masked]
  by_cases high : 2147483648 ≤ toWord x <;> simp [high]

theorem toSigned_eq_land (x : Int) :
    toSigned x =
      if Int.land (toWord x) 2147483648 ≠ 0 then toWord x - 4294967296 else toWord x := by
  rw [← toSigned_toWord, toSigned_word (toWord_nonneg x) (toWord_lt x), land_signBit]
  by_cases high : 2147483648 ≤ toWord x
  · have negative : ¬ toWord x < 2147483648 := by omega
    simp [high, negative]
  · have small : toWord x < 2147483648 := by omega
    simp [high, small]

end RegisterMachine
