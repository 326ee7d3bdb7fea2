import RegisterMachine.Proofs.Text.Cuts
import RegisterMachine.Proofs.Text.Lines

namespace RegisterMachine

/-- A note at the end of a line; the mark is its first character after the gap. -/
def note (on : Bool) (mark : Char) (body : List Char) : List Char :=
  if on then ' ' :: ' ' :: mark :: body else []

theorem mem_note {on : Bool} {mark c : Char} {body : List Char} :
    c ∈ note on mark body ↔ on = true ∧ (c = ' ' ∨ c = mark ∨ c ∈ body) := by
  cases on <;> simp [note]

theorem mark_suffix_note {on : Bool} {mark : Char} {body : List Char} (written : on = true) :
    mark :: body <:+ note on mark body := by
  rw [note, if_pos written]
  exact List.suffix_append [' ', ' '] _

/-- A note is found by its mark, if the text before it does not have that character. -/
theorem append_note_inj {mark : Char} {x y body body' : List Char} {on on' : Bool}
    (gap : mark ≠ ' ') (left : mark ∉ x) (right : mark ∉ y) :
    x ++ note on mark body = y ++ note on' mark body' ↔
      x = y ∧ on = on' ∧ (on = true → body = body') := by
  have apart (z rest : List Char) :
      z ++ ' ' :: ' ' :: mark :: rest = z ++ [' ', ' '] ++ mark :: rest := by
    simp
  have free {z : List Char} (plain : mark ∉ z) : mark ∉ z ++ [' ', ' '] := by
    simp [plain, gap]
  have marked {z w rest : List Char} (plain : mark ∉ z) : z ≠ w ++ ' ' :: ' ' :: mark :: rest := by
    rintro rfl
    simp at plain
  cases on with
  | false =>
    cases on' with
    | false => simp [note]
    | true => simp [note, marked left]
  | true =>
    cases on' with
    | false => simp [note, (marked right).symm]
    | true =>
      simp only [note, ↓reduceIte, apart, append_mark_inj (free left) (free right),
        List.append_cancel_right_eq, true_and, true_implies]

def changeText (i : Nat) (before after : Int) : String :=
  s!"r{i}: {contentText before} -> {contentText after}"

def contentsText (before after : Int) : List Char :=
  ' ' :: ((contentText before).toList ++ ' ' :: ("-> ".toList ++ (contentText after).toList))

theorem toList_changeText (i : Nat) (before after : Int) :
    (changeText i before after).toList =
      'r' :: (toString i).toList ++ ':' :: contentsText before after := by
  change ("r" ++ toString i ++ ": " ++ contentText before ++ " -> " ++ contentText after).toList = _
  simp only [String.toList_append, List.append_assoc]
  rfl

theorem not_mem_name_of {c : Char} (other : c ≠ 'r') (foreign : c ∉ numeralChars) (i : Nat) :
    c ∉ 'r' :: (toString i).toList :=
  List.not_mem_cons_of_ne_of_not_mem other ((isNumeral_nat i).not_mem foreign)

theorem not_mem_name (i : Nat) : ':' ∉ 'r' :: (toString i).toList :=
  not_mem_name_of (by decide) (by decide) i

theorem contentsText_inj {before after before' after' : Int} :
    contentsText before after = contentsText before' after' ↔
      before = before' ∧ after = after' := by
  have solid (x : Int) : ' ' ∉ (contentText x).toList :=
    (isNumeral_hexNumeral 0 x).not_mem (by decide)
  rw [contentsText, contentsText, List.cons.injEq, append_mark_inj (solid before) (solid before')]
  simp only [true_and, List.append_cancel_left_eq, String.toList_inj, contentText, hexNumeral_inj]

theorem changeText_inj {i j : Nat} {before after before' after' : Int} :
    changeText i before after = changeText j before' after' ↔
      i = j ∧ before = before' ∧ after = after' := by
  rw [← String.toList_inj, toList_changeText, toList_changeText,
    append_mark_inj (not_mem_name i) (not_mem_name j), contentsText_inj, List.cons.injEq,
    String.toList_inj, toString_nat_inj]
  simp only [true_and]

def StandsIn (part line : String) : Prop := part.toList <:+: line.toList

theorem name_suffix_iff {i j : Nat} {start : List Char} :
    'r' :: (toString i).toList <:+ start ++ 'r' :: (toString j).toList ↔ i = j := by
  have digits (n : Nat) : 'r' ∉ (toString n).toList.reverse := by
    rw [List.mem_reverse]
    exact (isNumeral_nat n).not_mem (by decide)
  rw [← List.reverse_prefix, List.reverse_append, List.reverse_cons, List.reverse_cons,
    List.append_assoc, List.singleton_append, prefix_append_mark (digits i) (digits j),
    List.reverse_inj, String.toList_inj, toString_nat_inj]

theorem not_mem_contentsText (before after : Int) : ':' ∉ contentsText before after := by
  have content (x : Int) : ':' ∉ (contentText x).toList :=
    (isNumeral_hexNumeral 0 x).not_mem (by decide)
  simp [contentsText, content]

/-- A name is found in a part of the line, or after the name that the part begins with. -/
theorem name_infix_changeText {i j : Nat} {before after : Int} {start rest : List Char}
    (plain : ':' ∉ start) :
    'r' :: (toString i).toList ++ [':'] <:+: start ++ ((changeText j before after).toList ++ rest) ↔
      i = j ∨ 'r' :: (toString i).toList ++ [':'] <:+: contentsText before after ++ rest := by
  have first : ':' ∉ start ++ 'r' :: (toString j).toList :=
    List.not_mem_append plain (not_mem_name j)
  have parted : start ++ ((changeText j before after).toList ++ rest) =
      start ++ 'r' :: (toString j).toList ++ ':' :: (contentsText before after ++ rest) := by
    simp [toList_changeText]
  rw [parted, infix_append_mark (not_mem_name i) first, name_suffix_iff]

theorem name_infix_changes {changes : List String}
    (each : ∀ text ∈ changes, ∃ j before after, text = changeText j before after) {i : Nat}
    {start rest : List Char} (plain : ':' ∉ start) (last : ':' ∉ rest) :
    'r' :: (toString i).toList ++ [':'] <:+: start ++ ((", ".intercalate changes).toList ++ rest) ↔
      ∃ before after, changeText i before after ∈ changes := by
  -- What stands after a name has no colon up to the next name, so it is a start like any other.
  induction changes generalizing start with
  | nil =>
    have unmarked : ':' ∉ start ++ rest := List.not_mem_append plain last
    apply iff_of_false
    · exact not_infix_of_unmarked unmarked
    · simp
  | cons text changes ih =>
    rw [List.forall_mem_cons] at each
    rcases each with ⟨⟨j, before, after, rfl⟩, each⟩
    have contents := not_mem_contentsText before after
    have here : (∃ x y, changeText i x y ∈ changeText j before after :: changes) ↔
        i = j ∨ ∃ x y, changeText i x y ∈ changes := by
      simp only [List.mem_cons, changeText_inj, exists_or]
      simp
    have later : 'r' :: (toString i).toList ++ [':'] <:+:
          start ++ ((", ".intercalate (changeText j before after :: changes)).toList ++ rest) ↔
        i = j ∨ ∃ x y, changeText i x y ∈ changes := by
      cases changes with
      | nil =>
        have shown := ih each contents
        rw [String.intercalate_singleton, name_infix_changeText plain]
        exact or_congr_right shown
      | cons second changes =>
        have gap : ':' ∉ ", ".toList := by decide
        have shown := ih each (List.not_mem_append contents gap)
        rw [String.intercalate_cons_cons, String.toList_append, String.toList_append,
          List.append_assoc, List.append_assoc, name_infix_changeText plain]
        rw [List.append_assoc] at shown
        exact or_congr_right shown
    rw [later, here]

end RegisterMachine
