import Mathlib.Data.Int.ModEq
import RegisterMachine.Proofs.Step.Effect
import RegisterMachine.Proofs.Word.Masks

namespace RegisterMachine

/-- An integer congruent to `x` modulo `2^32`, among the `2^32` integers from `low` on. -/
structure IsView (low x v : Int) : Prop where
  lower : low ≤ v
  upper : v < low + 4294967296
  congruent : v ≡ x [ZMOD 4294967296]

section

variable {low x v w : Int}

theorem isView_toWord (x : Int) : IsView 0 x (toWord x) where
  lower := toWord_nonneg x
  upper := by
    rw [Int.zero_add]
    exact toWord_lt x
  congruent := Int.mod_modEq x 4294967296

theorem isView_toSigned (x : Int) : IsView (-2147483648) x (toSigned x) where
  lower := (toSigned_bounds x).1
  upper := (toSigned_bounds x).2
  congruent := toWord_toSigned x

namespace IsView

theorem unique (view : IsView low x v) (other : IsView low x w) : w = v := by
  have same : v % 4294967296 = w % 4294967296 := view.congruent.trans other.congruent.symm
  have bounds := And.intro view.lower view.upper
  have bounds' := And.intro other.lower other.upper
  omega

theorem iff_eq (view : IsView low x v) : IsView low x w ↔ w = v := by
  constructor
  · intro other
    exact view.unique other
  · rintro rfl
    exact view

theorem eq_self_iff (view : IsView low x v) : v = x ↔ low ≤ x ∧ x < low + 4294967296 := by
  constructor
  · rintro rfl
    exact ⟨view.lower, view.upper⟩
  · rintro ⟨lower, upper⟩
    exact unique ⟨lower, upper, rfl⟩ view

theorem eq_add (view : IsView low x v) (below : x < low) (near : low ≤ x + 4294967296) :
    v = x + 4294967296 := by
  have congruent : x + 4294967296 ≡ x [ZMOD 4294967296] := Int.add_modulus_modEq_iff.mpr rfl
  have turned : IsView low x (x + 4294967296) := ⟨near, by omega, congruent⟩
  exact turned.unique view

theorem eq_sub (view : IsView low x v) (above : low + 4294967296 ≤ x)
    (near : x - 4294967296 < low + 4294967296) : v = x - 4294967296 := by
  have congruent : x - 4294967296 ≡ x [ZMOD 4294967296] := Int.sub_modulus_modEq_iff.mpr rfl
  have turned : IsView low x (x - 4294967296) := ⟨by omega, near, congruent⟩
  exact turned.unique view

end IsView

end

/-- The signed view of what is subtracted as words is a view of the difference of the signed
views. -/
theorem isView_toSigned_sub (x y : Int) :
    IsView (-2147483648) (toSigned x - toSigned y)
      (toSigned (toWord (toWord x - toWord y))) := by
  obtain ⟨lower, upper, congruent⟩ := isView_toSigned (toWord (toWord x - toWord y))
  refine ⟨lower, upper, congruent.trans ?_⟩
  calc
    toWord (toWord x - toWord y) ≡ x - y [ZMOD 4294967296] := by
      rw [toWord_sub_toWord]
      exact (isView_toWord (x - y)).congruent
    _ ≡ toSigned x - toSigned y [ZMOD 4294967296] :=
      (isView_toSigned x).congruent.symm.sub (isView_toSigned y).congruent.symm

theorem Handler.start_sub_words {rd ra rb : UInt8}
    (inRange : (Instruction.sub rd ra rb).InRange) (s : State) (sink : Sink) :
    (sub (Instruction.sub rd ra rb).operands).start ⟨s, sink⟩ =
      some (.ok false,
        ⟨s.assign rd (toWord (toWord (s.operand ra) - toWord (s.operand rb))), sink⟩) := by
  rw [toWord_sub_toWord]
  exact Instruction.start_handler (.sub rd ra rb) inRange s sink

theorem view_laws (x y : Int) :
    (∀ w, IsView 0 x w ↔ w = toWord x) ∧
    (∀ v, IsView (-2147483648) x v ↔ v = toSigned x) ∧
    toWord x = Int.land x wordMask ∧
    toSigned x =
      (if Int.land (toWord x) 2147483648 ≠ 0 then toWord x - 4294967296 else toWord x) ∧
    toWord (toSigned x) = toWord x ∧
    toSigned (toWord x) = toSigned x ∧
    toWord (toWord x - toWord y) = toWord (x - y) ∧
    (let result := toWord (toWord x - toWord y)
     let difference := toSigned x - toSigned y
     (toSigned result = difference ↔ -2147483648 ≤ difference ∧ difference < 2147483648) ∧
     (difference < -2147483648 → toSigned result = difference + 4294967296) ∧
     (2147483648 ≤ difference → toSigned result = difference - 4294967296) ∧
     ∀ (s : State) (sink : Sink) (rd ra rb : UInt8), (Instruction.sub rd ra rb).InRange →
       s.operand ra = x → s.operand rb = y →
       (Handler.sub (Instruction.sub rd ra rb).operands).start ⟨s, sink⟩ =
         some (.ok false, ⟨s.assign rd result, sink⟩)) := by
  have view := isView_toSigned_sub x y
  obtain ⟨lower, upper⟩ := toSigned_bounds x
  obtain ⟨lower', upper'⟩ := toSigned_bounds y
  refine ⟨fun _ => (isView_toWord x).iff_eq, fun _ => (isView_toSigned x).iff_eq, toWord_eq_land x,
    toSigned_eq_land x, toWord_toSigned x, toSigned_toWord x, toWord_sub_toWord x y,
    view.eq_self_iff, ?_, ?_, ?_⟩
  · intro below
    exact view.eq_add below (by omega)
  · intro above
    exact view.eq_sub above (by omega)
  · rintro s sink rd ra rb inRange rfl rfl
    exact Handler.start_sub_words inRange s sink

theorem view_laws_turned :
    let s : State := (State.assign {} 1 2147483647).assign 2 4294967295
    let i : Instruction := .sub 3 1 2
    i.InRange ∧ s.operand 1 = 2147483647 ∧ s.operand 2 = 4294967295 ∧
      (Handler.sub i.operands).start ⟨s, {}⟩ = some (.ok false, ⟨s.assign 3 2147483648, {}⟩) ∧
      2147483648 ≤ toSigned 2147483647 - toSigned 4294967295 ∧
      toSigned 2147483648 = toSigned 2147483647 - toSigned 4294967295 - 4294967296 ∧
      toSigned 2147483648 - toSigned 1 < -2147483648 ∧
      toSigned 2147483647 = toSigned 2147483648 - toSigned 1 + 4294967296 := by
  intro s i
  have inRange : i.InRange := by decide
  obtain ⟨-, -, -, -, -, -, -, -, -, above, run⟩ := view_laws 2147483647 4294967295
  obtain ⟨-, -, -, -, -, -, -, -, below, -, -⟩ := view_laws 2147483648 1
  have high : 2147483648 ≤ toSigned 2147483647 - toSigned 4294967295 := by decide
  have low : toSigned 2147483648 - toSigned 1 < -2147483648 := by decide
  exact ⟨inRange, rfl, rfl, run s {} 3 1 2 inRange rfl rfl, high, above high, low, below low⟩

end RegisterMachine
