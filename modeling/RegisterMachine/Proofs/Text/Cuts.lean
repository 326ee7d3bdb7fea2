import Mathlib.Data.List.Infix

namespace RegisterMachine

variable {α : Type} {c : α} {a b q x y s t : List α}

theorem append_mark_inj (left : c ∉ x) (right : c ∉ y) :
    x ++ c :: s = y ++ c :: t ↔ x = y ∧ s = t := by
  induction x generalizing y with
  | nil =>
    cases y with
    | nil => simp
    | cons d y =>
      have apart : c ≠ d := List.ne_of_not_mem_cons right
      simp [apart]
  | cons d x ih =>
    cases y with
    | nil =>
      have apart : d ≠ c := (List.ne_of_not_mem_cons left).symm
      simp [apart]
    | cons e y =>
      have rest := ih (List.not_mem_of_not_mem_cons left) (List.not_mem_of_not_mem_cons right)
      simp only [List.cons_append, List.cons.injEq, rest, and_assoc]

theorem intercalate_singleton_ne {gap part other second : List α} {others : List (List α)}
    (plain : c ∉ part) :
    (c :: gap).intercalate [part] ≠ (c :: gap).intercalate (other :: second :: others) := by
  rw [List.intercalate_singleton]
  rintro rfl
  simp [List.intercalate_cons_cons] at plain

/-- Parts without the character that the separator between them begins with are determined. -/
theorem intercalate_inj {gap part other : List α} {parts others : List (List α)}
    (plain : ∀ p ∈ part :: parts, c ∉ p) (plain' : ∀ p ∈ other :: others, c ∉ p) :
    (c :: gap).intercalate (part :: parts) = (c :: gap).intercalate (other :: others) ↔
      part :: parts = other :: others := by
  induction parts generalizing part other others with
  | nil =>
    have single := plain part List.mem_cons_self
    cases others with
    | nil => simp
    | cons second others => exact iff_of_false (intercalate_singleton_ne single) (by simp)
  | cons next parts ih =>
    cases others with
    | nil =>
      have single := plain' other List.mem_cons_self
      exact iff_of_false (intercalate_singleton_ne single).symm (by simp)
    | cons second others =>
      rw [List.forall_mem_cons] at plain plain'
      have rest := ih plain.2 plain'.2
      simp only [List.intercalate_cons_cons, List.cons_append, List.append_assoc,
        append_mark_inj plain.1 plain'.1, List.append_cancel_left_eq, rest, List.cons.injEq]

theorem text_intercalate_inj {separator part other : String} {c : Char} {gap : List Char}
    {parts others : List String} (begins : separator.toList = c :: gap)
    (plain : ∀ p ∈ part :: parts, c ∉ p.toList) (plain' : ∀ p ∈ other :: others, c ∉ p.toList) :
    separator.intercalate (part :: parts) = separator.intercalate (other :: others) ↔
      part :: parts = other :: others := by
  have lists {texts texts' : List String} :
      texts.map String.toList = texts'.map String.toList ↔ texts = texts' :=
    List.map_inj_right fun _ _ => String.toList_inj.mp
  have free {texts : List String} (plain : ∀ p ∈ texts, c ∉ p.toList) :
      ∀ p ∈ texts.map String.toList, c ∉ p := by
    rwa [List.forall_mem_map]
  rw [← String.toList_inj, String.toList_intercalate, String.toList_intercalate, begins, ← lists]
  exact intercalate_inj (free plain) (free plain')

theorem prefix_append_mark (inside : c ∉ q) (before : c ∉ a) :
    q ++ [c] <+: a ++ c :: b ↔ q = a := by
  constructor
  · rintro ⟨rest, same⟩
    rw [List.append_assoc, List.singleton_append] at same
    exact ((append_mark_inj inside before).mp same).1
  · rintro rfl
    exact ⟨b, by simp⟩

theorem not_infix_of_unmarked (unmarked : c ∉ a) : ¬ q ++ [c] <:+: a := by
  intro stands
  have member : c ∈ q ++ [c] := List.mem_append_right _ List.mem_cons_self
  exact unmarked (stands.subset member)

theorem infix_append_mark (inside : c ∉ q) (before : c ∉ a) :
    q ++ [c] <:+: a ++ c :: b ↔ q <:+ a ∨ q ++ [c] <:+: b := by
  induction a with
  | nil =>
    have here := prefix_append_mark (b := b) inside before
    rw [List.nil_append] at here ⊢
    rw [List.infix_cons_iff, List.suffix_nil, here]
  | cons d a ih =>
    have rest := ih (List.not_mem_of_not_mem_cons before)
    have here := prefix_append_mark (b := b) inside before
    rw [List.cons_append] at here ⊢
    rw [List.infix_cons_iff, List.suffix_cons_iff, here, rest, or_assoc]

theorem infix_intercalate (gap : List α) {part : List α} {parts : List (List α)}
    (member : part ∈ parts) : part <:+: gap.intercalate parts := by
  induction parts with
  | nil => cases member
  | cons first parts ih =>
    cases parts with
    | nil =>
      rw [List.mem_singleton.mp member, List.intercalate_singleton]
    | cons second parts =>
      rw [List.intercalate_cons_cons]
      rcases List.mem_cons.mp member with rfl | later
      · exact (List.prefix_append _ _).isInfix.trans (List.prefix_append _ _).isInfix
      · exact (ih later).trans (List.suffix_append _ _).isInfix

end RegisterMachine
