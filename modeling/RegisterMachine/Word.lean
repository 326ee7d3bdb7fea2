namespace RegisterMachine

def wordMask : Int := 4294967295

def toWord (x : Int) : Int := x % 4294967296

def toSigned (x : Int) : Int := Int.bmod x 4294967296

/-- Whether an integer is one of the signed numbers of 64 bits, in which places and lengths are
counted. -/
def isCountable (x : Int) : Bool := -9223372036854775808 ≤ x && x < 9223372036854775808

def numberOfBytes : List UInt8 → Nat
  | [] => 0
  | b :: bs => b.toNat + 256 * numberOfBytes bs

theorem toWord_nonneg (x : Int) : 0 ≤ toWord x := by
  unfold toWord; omega

theorem toWord_lt (x : Int) : toWord x < 4294967296 := by
  unfold toWord; omega

theorem toWord_of_lt {x : Int} (hx : 0 ≤ x) (h : x < 4294967296) : toWord x = x := by
  unfold toWord; omega

theorem toWord_toSigned (x : Int) : toWord (toSigned x) = toWord x := Int.bmod_emod

theorem toSigned_toWord (x : Int) : toSigned (toWord x) = toSigned x := Int.emod_bmod ..

theorem toWord_sub_toWord (x y : Int) : toWord (toWord x - toWord y) = toWord (x - y) :=
  (Int.sub_emod x y _).symm

theorem toSigned_bounds (x : Int) : -2147483648 ≤ toSigned x ∧ toSigned x < 2147483648 := by
  simp only [toSigned, Int.bmod]
  split <;> omega

theorem toSigned_word {x : Int} (lower : 0 ≤ x) (upper : x < 4294967296) :
    toSigned x = if x < 2147483648 then x else x - 4294967296 := by
  simp only [toSigned, Int.bmod]
  split <;> split <;> omega

theorem toSigned_emod {x : Int} (lower : 0 ≤ x) (upper : x < 4294967296) :
    toSigned x % 4294967296 = x := by
  have same := toWord_toSigned x
  rw [toWord_of_lt lower upper] at same
  exact same

theorem toSigned_inj {x y : Int} (lower : 0 ≤ x) (upper : x < 4294967296) (lower' : 0 ≤ y)
    (upper' : y < 4294967296) : toSigned x = toSigned y ↔ x = y := by
  constructor
  · intro same
    rw [← toSigned_emod lower upper, same, toSigned_emod lower' upper']
  · rintro rfl
    rfl

theorem testBit_word {x : Int} (lower : 0 ≤ x) (upper : x < 4294967296) :
    x.toNat.testBit 31 = decide (2147483648 ≤ x) := by
  rw [Nat.testBit_eq_decide_div_mod_eq, decide_eq_decide]
  omega

end RegisterMachine
