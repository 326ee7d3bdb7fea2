import RegisterMachine.Proofs.Text.HexBytes

namespace RegisterMachine

def IsHexDigit (c : Char) (n : Nat) : Prop :=
  n < 16 ∧ (c = n.digitChar ∨ c = n.digitChar.toUpper)

inductive HexDigits : List Char → List UInt8 → Prop
  | nil : HexDigits [] []
  | pair {c d : Char} {high low : Nat} {digits : List Char} {bytes : List UInt8}
    (first : IsHexDigit c high) (second : IsHexDigit d low) (rest : HexDigits digits bytes) :
    HexDigits (c :: d :: digits) ((16 * high + low).toUInt8 :: bytes)

namespace HexDigits

variable {digits : List Char} {bytes : List UInt8}

theorem all (written : HexDigits digits bytes) : ∀ c ∈ digits, ∃ n, IsHexDigit c n := by
  induction written with
  | nil => exact List.forall_mem_nil _
  | pair first second _ ih =>
    exact List.forall_mem_cons.mpr ⟨⟨_, first⟩, List.forall_mem_cons.mpr ⟨⟨_, second⟩, ih⟩⟩

theorem get (written : HexDigits digits bytes) {i : Nat} {b : UInt8} (here : bytes[i]? = some b) :
    ∃ c d high low, digits[2 * i]? = some c ∧ digits[2 * i + 1]? = some d ∧
      IsHexDigit c high ∧ IsHexDigit d low ∧ b.toNat = 16 * high + low := by
  induction written generalizing i with
  | nil => cases here
  | @pair c d high low _ _ first second _ ih =>
    cases i with
    | zero =>
      cases here
      have bound : 16 * high + low < 256 := by
        have upper := first.1
        have lower := second.1
        omega
      exact ⟨c, d, high, low, rfl, rfl, first, second, Nat.mod_eq_of_lt bound⟩
    | succ i => exact ih here

end HexDigits

variable {text : String} {bytes : List UInt8}

end RegisterMachine
