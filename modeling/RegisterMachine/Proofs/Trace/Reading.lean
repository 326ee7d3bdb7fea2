import RegisterMachine.Proofs.Instruction.Assembly
import RegisterMachine.Proofs.Trace.Parts

namespace RegisterMachine

namespace StepRecord

variable {r r' : StepRecord}

theorem mem_zipIdx_registers {before after : Registers} {x y : Int} {i : Nat} :
    ((x, y), i) ∈ (before.toList.zip after.toList).zipIdx ↔
      ∃ small : i < 16, before.get ⟨i, small⟩ = x ∧ after.get ⟨i, small⟩ = y := by
  rw [List.mem_zipIdx_iff_getElem?, List.getElem?_zip_eq_some, Vector.getElem?_toList,
    Vector.getElem?_toList, Vector.getElem?_eq_some_iff, Vector.getElem?_eq_some_iff]
  constructor
  · rintro ⟨⟨small, old⟩, ⟨_, new⟩⟩
    exact ⟨small, old, new⟩
  · rintro ⟨small, old, new⟩
    exact ⟨⟨small, old⟩, ⟨small, new⟩⟩

theorem mem_changes {text : String} :
    text ∈ r.changes ↔
      ∃ i : Fin 16, i ≠ 0 ∧ r.before.get i ≠ r.after.get i ∧
        text = changeText i (r.before.get i) (r.after.get i) := by
  constructor
  · intro member
    rcases List.mem_map.mp member with ⟨⟨⟨before, after⟩, i⟩, kept, rfl⟩
    rcases List.mem_filter.mp kept with ⟨stands, changed⟩
    rcases mem_zipIdx_registers.mp stands with ⟨small, rfl, rfl⟩
    simp only [ne_eq, Bool.and_eq_true, decide_eq_true_eq] at changed
    refine ⟨⟨i, small⟩, ?_, changed.2, rfl⟩
    intro zero
    exact changed.1 (congrArg Fin.val zero)
  · rintro ⟨i, other, changed, rfl⟩
    apply List.mem_map.mpr
    refine ⟨((r.before.get i, r.after.get i), i), ?_, rfl⟩
    apply List.mem_filter.mpr
    constructor
    · exact mem_zipIdx_registers.mpr ⟨i.isLt, rfl, rfl⟩
    · have named : i.val ≠ 0 := by
        intro zero
        exact other (Fin.ext zero)
      simp [named, changed]

theorem toList_heading (r : StepRecord) :
    r.heading.toList =
      '[' :: (toString r.step).toList ++ ']' :: ' ' ::
        ((addressText r.ip).toList ++ ':' :: ' ' :: r.instruction.text.toList) := by
  change ("[" ++ toString r.step ++ "] " ++ addressText r.ip ++ ": " ++ r.instruction.text).toList =
    _
  simp only [String.toList_append, List.append_assoc]
  rfl

theorem heading_inj :
    r.heading = r'.heading ↔
      r.step = r'.step ∧ r.ip = r'.ip ∧ r.instruction = r'.instruction := by
  have number (n : Nat) : ']' ∉ '[' :: (toString n).toList :=
    List.not_mem_cons_of_ne_of_not_mem (by decide) ((isNumeral_nat n).not_mem (by decide))
  have address (x : Int) : ':' ∉ (addressText x).toList :=
    (isNumeral_hexNumeral 6 x).not_mem (by decide)
  simp only [← String.toList_inj, toList_heading, append_mark_inj (number _) (number _),
    append_mark_inj (address _) (address _), List.cons.injEq, true_and]
  simp only [String.toList_inj, toString_nat_inj, addressText, hexNumeral_inj, Instruction.text_inj]

def changesBody (r : StepRecord) : List Char := (", ".intercalate r.changes).toList ++ [')']

def jumpBody (r : StepRecord) : List Char := "ump -> ".toList ++ (addressText r.nextIp).toList

def changesNote (r : StepRecord) : List Char := note (!r.changes.isEmpty) '(' r.changesBody

def jumpNote (r : StepRecord) : List Char := note r.jumps 'j' r.jumpBody

def exitNote (r : StepRecord) : List Char := note r.ends 'E' "XIT".toList

theorem toList_text (r : StepRecord) :
    r.text.toList = r.heading.toList ++ r.changesNote ++ r.jumpNote ++ r.exitNote := by
  have changes : (if r.changes.isEmpty then ""
      else "  (" ++ ", ".intercalate r.changes ++ ")").toList = r.changesNote := by
    cases empty : r.changes.isEmpty with
    | true => simp [changesNote, note, empty]
    | false =>
      simp only [Bool.false_eq_true, ↓reduceIte, String.toList_append, changesNote, empty]
      rfl
  have jump : (if r.jumps then s!"  jump -> {addressText r.nextIp}" else "").toList =
      r.jumpNote := by
    cases jumps : r.jumps with
    | false => simp [jumpNote, note, jumps]
    | true =>
      change ("  jump -> " ++ addressText r.nextIp).toList = _
      rw [String.toList_append, jumpNote, jumps]
      rfl
  have exit : (if r.ends then "  EXIT" else "").toList = r.exitNote := by
    cases ends : r.ends with
    | false => simp [exitNote, note, ends]
    | true =>
      rw [exitNote, ends]
      rfl
  rw [text, String.toList_append, String.toList_append, String.toList_append, changes, jump, exit]
  rfl

section

variable {c : Char}

theorem not_mem_heading (r : StepRecord) (other : c ∉ lineChars) : c ∉ r.heading.toList :=
  r.consistsOf_heading.not_mem other

theorem not_mem_changesNote (r : StepRecord) (other : c ∉ "()".toList ++ lineChars) :
    c ∉ r.changesNote := by
  have marks : [' ', '(', ')'] ⊆ "()".toList ++ lineChars := by decide
  have changes := r.consistsOf_intercalate_changes
  intro member
  rcases mem_note.mp member with ⟨-, rfl | rfl | body⟩
  · exact other (marks (by decide))
  · exact other (marks (by decide))
  · rcases List.mem_append.mp body with inside | last
    · exact other (List.mem_append_right _ (changes inside))
    · rw [List.mem_singleton.mp last] at other
      exact other (marks (by decide))

theorem not_mem_jumpNote (r : StepRecord) (other : c ∉ "jump >".toList ++ numeralChars) :
    c ∉ r.jumpNote := by
  have marks : ' ' :: 'j' :: "ump -> ".toList ⊆ "jump >".toList ++ numeralChars := by decide
  have target := isNumeral_hexNumeral 6 r.nextIp
  intro member
  rcases mem_note.mp member with ⟨-, rfl | rfl | body⟩
  · exact other (marks (by decide))
  · exact other (marks (by decide))
  · rcases List.mem_append.mp body with first | last
    · exact other (marks (List.mem_cons_of_mem _ (List.mem_cons_of_mem _ first)))
    · exact other (List.mem_append_right _ (target last))

theorem not_mem_exitNote (r : StepRecord) (other : c ∉ ' ' :: "EXIT".toList) :
    c ∉ r.exitNote := by
  intro member
  rcases mem_note.mp member with ⟨-, rfl | rfl | body⟩
  · exact absurd other (by decide)
  · exact absurd other (by decide)
  · exact other (List.mem_cons_of_mem _ (List.mem_cons_of_mem _ body))

end

theorem unmarked_before_jumpNote (r : StepRecord) : 'j' ∉ r.heading.toList ++ r.changesNote :=
  List.not_mem_append (r.not_mem_heading (by decide)) (r.not_mem_changesNote (by decide))

theorem unmarked_before_exitNote (r : StepRecord) :
    'E' ∉ r.heading.toList ++ r.changesNote ++ r.jumpNote := by
  have front : 'E' ∉ r.heading.toList ++ r.changesNote :=
    List.not_mem_append (r.not_mem_heading (by decide)) (r.not_mem_changesNote (by decide))
  exact List.not_mem_append front (r.not_mem_jumpNote (by decide))

structure Agrees (r r' : StepRecord) : Prop where
  heading : r.heading = r'.heading
  changes : r.changes = r'.changes
  jumps : r.jumps = r'.jumps
  target : r.jumps = true → r.nextIp = r'.nextIp
  ends : r.ends = r'.ends

theorem changes_eq_of_changesBody_eq (both : r.changes.isEmpty = r'.changes.isEmpty)
    (same : r.changes.isEmpty = false → r.changesBody = r'.changesBody) :
    r.changes = r'.changes := by
  have plain (r : StepRecord) : ∀ change ∈ r.changes, ',' ∉ change.toList := fun change member =>
    (r.consistsOf_changes change member).not_mem (by decide)
  have left := plain r
  have right := plain r'
  unfold changesBody at same
  generalize r.changes = changes at *
  generalize r'.changes = changes' at *
  cases changes with
  | nil => exact (List.isEmpty_iff.mp both.symm).symm
  | cons change changes =>
    cases changes' with
    | nil => cases both
    | cons change' changes' =>
      have texts := String.toList_injective (List.append_cancel_right (same rfl))
      exact (text_intercalate_inj rfl left right).mp texts

theorem agrees_of_text_eq (same : r.text = r'.text) : r.Agrees r' := by
  have chars := congrArg String.toList same
  rw [toList_text, toList_text] at chars
  rcases (append_note_inj (by decide) r.unmarked_before_exitNote
    r'.unmarked_before_exitNote).mp chars with ⟨chars, ends, -⟩
  rcases (append_note_inj (by decide) r.unmarked_before_jumpNote
    r'.unmarked_before_jumpNote).mp chars with ⟨chars, jumps, target⟩
  rcases (append_note_inj (by decide) (r.not_mem_heading (by decide))
    (r'.not_mem_heading (by decide))).mp chars with ⟨heading, both, body⟩
  have emptiness : r.changes.isEmpty = r'.changes.isEmpty := Bool.not_inj both
  have changes : r.changes = r'.changes := by
    apply changes_eq_of_changesBody_eq emptiness
    intro written
    exact body (by rw [written]; rfl)
  refine ⟨String.toList_injective heading, changes, jumps, ?_, ends⟩
  intro on
  have texts := List.append_cancel_left (target on)
  exact hexNumeral_inj.mp (String.toList_injective texts)

def place (r : StepRecord) : String := s!"[{r.step}] {addressText r.ip}"

theorem heading_eq (r : StepRecord) : r.heading = r.place ++ ": " ++ r.instruction.text := rfl

theorem consistsOf_place (r : StepRecord) : ConsistsOf ("[] ".toList ++ numeralChars) r.place := by
  have numeral {text : String} (plain : IsNumeral text) :
      ConsistsOf ("[] ".toList ++ numeralChars) text :=
    plain.mono (List.subset_append_right _ _)
  have step := numeral (isNumeral_nat r.step)
  have address := numeral (isNumeral_hexNumeral 6 r.ip)
  simp only [place, consistsOf_append]
  refine ⟨⟨⟨?_, step⟩, ?_⟩, address⟩
  all_goals decide

structure Shown (r : StepRecord) : Prop where
  register : ∀ i : Fin 16, StandsIn s!"r{i.val}:" r.text ↔ i ≠ 0 ∧ r.before.get i ≠ r.after.get i
  contents : ∀ i : Fin 16, i ≠ 0 → r.before.get i ≠ r.after.get i →
    StandsIn s!"r{i.val}: {contentText (r.before.get i)} -> {contentText (r.after.get i)}" r.text
  jump : StandsIn "jump" r.text ↔ r.after.pointer ≠ r.ip + r.instruction.size
  target : r.after.pointer ≠ r.ip + r.instruction.size →
    StandsIn s!"jump -> {addressText r.after.pointer}" r.text
  exit : StandsIn "EXIT" r.text ↔ r.ends = true

theorem exists_toList_text_eq (r : StepRecord) :
    ∃ start rest, ':' ∉ start ∧ ':' ∉ rest ∧
      r.text.toList =
        r.place.toList ++ ':' :: (start ++ ((", ".intercalate r.changes).toList ++ rest)) := by
  have instruction : ':' ∉ r.instruction.text.toList :=
    r.instruction.consistsOf_text.not_mem (by decide)
  have first : ':' ∉ ' ' :: r.instruction.text.toList :=
    List.not_mem_cons_of_ne_of_not_mem (by decide) instruction
  have jump : ':' ∉ r.jumpNote := r.not_mem_jumpNote (by decide)
  have exit : ':' ∉ r.exitNote := r.not_mem_exitNote (by decide)
  have last : ':' ∉ r.jumpNote ++ r.exitNote := List.not_mem_append jump exit
  have heading : r.heading.toList = r.place.toList ++ ':' :: ' ' :: r.instruction.text.toList := by
    rw [heading_eq, String.toList_append, String.toList_append, List.append_assoc]
    rfl
  rw [toList_text, heading]
  cases empty : r.changes.isEmpty with
  | true =>
    refine ⟨_, _, first, last, ?_⟩
    rw [List.isEmpty_iff.mp empty]
    simp [changesNote, note, empty]
  | false =>
    have opening : ':' ∉ "  (".toList := by decide
    have closed : ':' ∉ ')' :: (r.jumpNote ++ r.exitNote) :=
      List.not_mem_cons_of_ne_of_not_mem (by decide) last
    refine ⟨_, _, List.not_mem_append first opening, closed, ?_⟩
    simp [changesNote, changesBody, note, empty]

theorem standsIn_name_iff (r : StepRecord) (i : Fin 16) :
    StandsIn s!"r{i.val}:" r.text ↔ i ≠ 0 ∧ r.before.get i ≠ r.after.get i := by
  have name : s!"r{i.val}:".toList = 'r' :: (toString i.val).toList ++ [':'] := by
    change ("r" ++ toString i.val ++ ":").toList = _
    rw [String.toList_append, String.toList_append]
    rfl
  have outside : 'r' ∉ r.place.toList := r.consistsOf_place.not_mem (by decide)
  have unnamed : ¬ 'r' :: (toString i.val).toList <:+ r.place.toList := by
    intro stands
    exact outside (stands.subset List.mem_cons_self)
  have colon : ':' ∉ r.place.toList := r.consistsOf_place.not_mem (by decide)
  have each : ∀ text ∈ r.changes, ∃ j before after, text = changeText j before after := by
    intro text member
    rcases mem_changes.mp member with ⟨j, -, -, same⟩
    exact ⟨j, _, _, same⟩
  have changed : (∃ before after, changeText i before after ∈ r.changes) ↔
      i ≠ 0 ∧ r.before.get i ≠ r.after.get i := by
    constructor
    · rintro ⟨before, after, member⟩
      rcases mem_changes.mp member with ⟨j, other, differ, same⟩
      rcases changeText_inj.mp same with ⟨index, -, -⟩
      rw [Fin.ext index]
      exact ⟨other, differ⟩
    · rintro ⟨other, differ⟩
      exact ⟨_, _, mem_changes.mpr ⟨i, other, differ, rfl⟩⟩
  rcases r.exists_toList_text_eq with ⟨start, rest, plain, last, parted⟩
  rw [StandsIn, name, parted, infix_append_mark (not_mem_name i) colon, or_iff_right unnamed,
    name_infix_changes each plain last, changed]

theorem jumpNote_infix_text (r : StepRecord) : r.jumpNote <:+: r.text.toList := by
  rw [toList_text]
  exact List.infix_append _ _ _

theorem exitNote_infix_text (r : StepRecord) : r.exitNote <:+: r.text.toList := by
  rw [toList_text]
  exact (List.suffix_append _ _).isInfix

theorem jumps_of_mem (marked : 'j' ∈ r.text.toList) : r.jumps = true := by
  rw [toList_text] at marked
  rcases List.mem_append.mp marked with front | exit
  · rcases List.mem_append.mp front with front | jump
    · exact absurd front r.unmarked_before_jumpNote
    · exact (mem_note.mp jump).1
  · exact absurd exit (r.not_mem_exitNote (by decide))

theorem ends_of_mem (marked : 'E' ∈ r.text.toList) : r.ends = true := by
  rw [toList_text] at marked
  rcases List.mem_append.mp marked with front | exit
  · exact absurd front r.unmarked_before_exitNote
  · exact (mem_note.mp exit).1

theorem jumps_iff (r : StepRecord) :
    r.jumps = true ↔ r.after.pointer ≠ r.ip + r.instruction.size :=
  decide_eq_true_iff

theorem jump_infix_text (on : r.jumps = true) : 'j' :: r.jumpBody <:+: r.text.toList := by
  have last : 'j' :: r.jumpBody <:+ r.jumpNote := mark_suffix_note on
  exact last.isInfix.trans r.jumpNote_infix_text

theorem change_infix_text {change : String} (member : change ∈ r.changes) :
    change.toList <:+: r.text.toList := by
  have part := infix_intercalate ", ".toList (List.mem_map_of_mem (f := String.toList) member)
  rw [← String.toList_intercalate] at part
  rcases r.exists_toList_text_eq with ⟨start, rest, -, -, parted⟩
  rw [parted]
  have last := (List.suffix_cons ':' (start ++ ((", ".intercalate r.changes).toList ++ rest))).trans
    (List.suffix_append r.place.toList _)
  exact part.trans ((List.infix_append' _ _ _).trans last.isInfix)

theorem shown (r : StepRecord) : r.Shown where
  register := r.standsIn_name_iff
  contents := by
    intro i other changed
    exact change_infix_text (mem_changes.mpr ⟨i, other, changed, rfl⟩)
  jump := by
    rw [← jumps_iff]
    constructor
    · intro stands
      exact jumps_of_mem (stands.subset (by decide))
    · intro on
      have mark : "jump".toList <+: 'j' :: r.jumpBody := List.prefix_append "jump".toList _
      exact mark.isInfix.trans (jump_infix_text on)
  target := by
    intro jumped
    have written : s!"jump -> {addressText r.after.pointer}".toList = 'j' :: r.jumpBody := by
      change ("jump -> " ++ addressText r.nextIp).toList = _
      rw [String.toList_append]
      rfl
    rw [StandsIn, written]
    exact jump_infix_text (r.jumps_iff.mpr jumped)
  exit := by
    constructor
    · intro stands
      exact ends_of_mem (stands.subset (by decide))
    · intro on
      have last : "EXIT".toList <:+ r.exitNote := mark_suffix_note on
      exact last.isInfix.trans r.exitNote_infix_text

end StepRecord

end RegisterMachine
