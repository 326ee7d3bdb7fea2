import RegisterMachine.CommandLine.Session
import RegisterMachine.Proofs.Step.Table
import RegisterMachine.Proofs.Trace.Parts

namespace RegisterMachine

def registerPart (render : Int → String) (entry : Int × Nat) : String :=
  s!"r{entry.2}={render entry.1}"

def rendered (named : Nat → Bool) (contents : List Int) : List (Int × Nat) :=
  contents.zipIdx.filter fun (value, i) => named i && value ≠ 0

structure WritesNumbers (render : Int → String) : Prop where
  numeral : ∀ x, IsNumeral (render x)
  inj : ∀ x y, render x = render y ↔ x = y

theorem writesNumbers_contentText : WritesNumbers contentText where
  numeral := isNumeral_hexNumeral 0
  inj _ _ := hexNumeral_inj

theorem writesNumbers_toString : WritesNumbers fun x => toString x where
  numeral := isNumeral_int
  inj _ _ := toString_int_inj

section

variable {render : Int → String} {entry entry' : Int × Nat} {entries entries' : List (Int × Nat)}
  {named : Nat → Bool} {contents others : List Int} {x : Int} {i : Nat}

theorem toList_registerPart (render : Int → String) (entry : Int × Nat) :
    (registerPart render entry).toList =
      'r' :: (toString entry.2).toList ++ '=' :: (render entry.1).toList := by
  change ("r" ++ toString entry.2 ++ "=" ++ render entry.1).toList = _
  simp only [String.toList_append, List.append_assoc]
  rfl

theorem unmarked_name (i : Nat) : '=' ∉ 'r' :: (toString i).toList :=
  not_mem_name_of (by decide) (by decide) i

theorem registerPart_inj (writes : WritesNumbers render) :
    registerPart render entry = registerPart render entry' ↔ entry = entry' := by
  rw [← String.toList_inj, toList_registerPart, toList_registerPart,
    append_mark_inj (unmarked_name _) (unmarked_name _), List.cons.injEq, String.toList_inj,
    String.toList_inj, toString_nat_inj, writes.inj, Prod.ext_iff]
  simp only [true_and, and_comm]

theorem consistsOf_registerPart (writes : WritesNumbers render) (entry : Int × Nat) :
    ConsistsOf ("r=".toList ++ numeralChars) (registerPart render entry) := by
  have numeral {text : String} (plain : IsNumeral text) :
      ConsistsOf ("r=".toList ++ numeralChars) text :=
    plain.mono (List.subset_append_right _ _)
  have place := numeral (isNumeral_nat entry.2)
  have content := numeral (writes.numeral entry.1)
  change ConsistsOf _ ("r" ++ toString entry.2 ++ "=" ++ render entry.1)
  simp only [consistsOf_append]
  refine ⟨⟨⟨?_, place⟩, ?_⟩, content⟩
  all_goals decide

theorem map_registerPart_inj (writes : WritesNumbers render) :
    entries.map (registerPart render) = entries'.map (registerPart render) ↔
      entries = entries' :=
  List.map_inj_right fun _ _ => (registerPart_inj writes).mp

theorem unspaced_registerParts (writes : WritesNumbers render) (entries : List (Int × Nat)) :
    ∀ part ∈ entries.map (registerPart render), ' ' ∉ part.toList := by
  rw [List.forall_mem_map]
  intro entry _
  exact (consistsOf_registerPart writes entry).not_mem (by decide)

theorem toList_intercalate_space (part : String) (parts : List String) :
    (" ".intercalate (part :: parts)).toList =
      part.toList ++ parts.flatMap fun part => ' ' :: part.toList := by
  induction parts generalizing part with
  | nil => simp
  | cons second parts ih =>
    rw [String.intercalate_cons_cons, String.toList_append, String.toList_append, ih,
      List.flatMap_cons, List.append_assoc]
    rfl

theorem name_infix_registerParts (writes : WritesNumbers render) {start : List Char}
    (plain : '=' ∉ start) :
    'r' :: (toString i).toList ++ ['='] <:+:
        start ++ (entries.map (registerPart render)).flatMap (fun part => ' ' :: part.toList) ↔
      ∃ x, (x, i) ∈ entries := by
  -- After its mark a part has no other, so its content is the start of what follows.
  induction entries generalizing start with
  | nil =>
    apply iff_of_false
    · rw [List.map_nil, List.flatMap_nil, List.append_nil]
      exact not_infix_of_unmarked plain
    · simp
  | cons entry entries ih =>
    have first : '=' ∉ start ++ [' '] ++ 'r' :: (toString entry.2).toList :=
      List.not_mem_append (by simpa using plain) (unmarked_name entry.2)
    have content : '=' ∉ (render entry.1).toList := (writes.numeral entry.1).not_mem (by decide)
    have here : (∃ x, (x, i) ∈ entry :: entries) ↔ i = entry.2 ∨ ∃ x, (x, i) ∈ entries := by
      simp only [List.mem_cons, exists_or, Prod.ext_iff, exists_eq_left]
    have parted : start ++ (' ' :: (registerPart render entry).toList ++
          (entries.map (registerPart render)).flatMap fun part => ' ' :: part.toList) =
        start ++ [' '] ++ 'r' :: (toString entry.2).toList ++ '=' :: ((render entry.1).toList ++
          (entries.map (registerPart render)).flatMap fun part => ' ' :: part.toList) := by
      simp [toList_registerPart]
    rw [List.map_cons, List.flatMap_cons, parted, infix_append_mark (unmarked_name i) first,
      name_suffix_iff, ih content, here]

theorem mem_rendered :
    (x, i) ∈ rendered named contents ↔ contents[i]? = some x ∧ named i = true ∧ x ≠ 0 := by
  simp [rendered, List.mem_zipIdx_iff_getElem?]

theorem eq_of_rendered_eq (same : rendered named contents = rendered named others)
    (place : named i = true) {x y : Int} (left : contents[i]? = some x)
    (right : others[i]? = some y) : x = y := by
  have shown {z : Int} (other : z ≠ 0) : contents[i]? = some z ↔ others[i]? = some z := by
    have both := congrArg ((z, i) ∈ ·) same
    simpa [mem_rendered, place, other] using both
  -- A content that is left out on one side can only be left out on the other.
  by_cases zero : x = 0
  · by_cases zero' : y = 0
    · rw [zero, zero']
    · have stands := (shown zero').mpr right
      rw [left] at stands
      exact Option.some.inj stands
  · have stands := (shown zero).mp left
    rw [right] at stands
    exact (Option.some.inj stands).symm

end

namespace State

theorem text_eq (s : State) :
    s.text = " ".intercalate
      (s!"IP={addressText s.ip}" ::
        (rendered (· ≠ 0) s.registers.toList).map (registerPart contentText)) := rfl

theorem toList_pointerPart (x : Int) :
    s!"IP={addressText x}".toList = "IP".toList ++ '=' :: (addressText x).toList := by
  change ("IP=" ++ addressText x).toList = _
  rw [String.toList_append]
  rfl

theorem pointerPart_inj {x y : Int} :
    s!"IP={addressText x}" = s!"IP={addressText y}" ↔ x = y := by
  rw [← String.toList_inj, toList_pointerPart, toList_pointerPart, List.append_cancel_left_eq,
    List.cons.injEq, String.toList_inj, addressText, addressText, hexNumeral_inj]
  simp only [true_and]

theorem unspaced_parts (s : State) :
    ∀ part ∈ s!"IP={addressText s.ip}" ::
      (rendered (· ≠ 0) s.registers.toList).map (registerPart contentText), ' ' ∉ part.toList := by
  have address : ' ' ∉ (addressText s.ip).toList :=
    (isNumeral_hexNumeral 6 s.ip).not_mem (by decide)
  rw [List.forall_mem_cons, toList_pointerPart]
  refine ⟨?_, unspaced_registerParts writesNumbers_contentText _⟩
  simpa using address

theorem text_inj {s s' : State} : s.text = s'.text ↔ s.registers = s'.registers := by
  constructor
  · intro same
    rw [text_eq, text_eq, text_intercalate_inj rfl s.unspaced_parts s'.unspaced_parts,
      List.cons.injEq, pointerPart_inj, map_registerPart_inj writesNumbers_contentText] at same
    obtain ⟨pointer, shown⟩ := same
    apply Vector.ext
    intro i small
    by_cases first : i = 0
    · subst first
      exact pointer
    · exact eq_of_rendered_eq shown (decide_eq_true first)
        (by rw [Vector.getElem?_toList, Vector.getElem?_eq_getElem small])
        (by rw [Vector.getElem?_toList, Vector.getElem?_eq_getElem small])
  · intro same
    simp only [text, ip, same]

theorem standsIn_text_iff (s : State) (i : Fin 16) :
    StandsIn s!"r{i.val}=" s.text ↔ i ≠ 0 ∧ s.registers.get i ≠ 0 := by
  have name : s!"r{i.val}=".toList = 'r' :: (toString i.val).toList ++ ['='] := by
    change ("r" ++ toString i.val ++ "=").toList = _
    rw [String.toList_append, String.toList_append]
    rfl
  have pointer : '=' ∉ "IP".toList := by decide
  have unnamed : ¬ 'r' :: (toString i.val).toList <:+ "IP".toList := by
    intro stands
    exact absurd (stands.subset List.mem_cons_self) (by decide)
  have address : '=' ∉ (addressText s.ip).toList :=
    (isNumeral_hexNumeral 6 s.ip).not_mem (by decide)
  have shown : (∃ x, (x, i.val) ∈ rendered (· ≠ 0) s.registers.toList) ↔
      i ≠ 0 ∧ s.registers.get i ≠ 0 := by
    have stands : s.registers.toList[i.val]? = some (s.registers.get i) := by
      rw [Vector.getElem?_toList, Vector.getElem?_eq_getElem i.isLt]
      rfl
    simp only [mem_rendered, stands, Option.some.injEq, decide_eq_true_eq, exists_eq_left',
      ne_eq, Fin.ext_iff, Fin.val_zero]
  have parted : s.text.toList = "IP".toList ++ '=' :: ((addressText s.ip).toList ++
      ((rendered (· ≠ 0) s.registers.toList).map (registerPart contentText)).flatMap
        fun part => ' ' :: part.toList) := by
    rw [text_eq, toList_intercalate_space, toList_pointerPart, List.append_assoc, List.cons_append]
  rw [StandsIn, name, parted, infix_append_mark (unmarked_name i) pointer, or_iff_right unnamed,
    name_infix_registerParts writesNumbers_contentText address, shown]

end State

namespace Summary

theorem registersText_eq (s : Summary) :
    s.registersText =
      if (rendered (fun _ => true) s.signed).isEmpty then "(all zero)"
      else " ".intercalate
        ((rendered (fun _ => true) s.signed).map (registerPart fun x => toString x)) := by
  rfl

theorem ne_intercalate_registerParts (entries : List (Int × Nat)) :
    "(all zero)" ≠ " ".intercalate (entries.map (registerPart fun x => toString x)) := by
  have gap : ConsistsOf (' ' :: "r=".toList ++ numeralChars) " " := by decide
  have parts : ConsistsOf (' ' :: "r=".toList ++ numeralChars)
      (" ".intercalate (entries.map (registerPart fun x => toString x))) := by
    apply consistsOf_intercalate gap
    rw [List.forall_mem_map]
    intro entry _
    exact (consistsOf_registerPart writesNumbers_toString entry).mono (List.subset_cons_self _ _)
  intro same
  have bracket : '(' ∉ "(all zero)".toList := same ▸ parts.not_mem (by decide)
  exact bracket (by decide)

theorem registersText_inj {s s' : Summary} :
    s.registersText = s'.registersText ↔
      rendered (fun _ => true) s.signed = rendered (fun _ => true) s'.signed := by
  rw [registersText_eq, registersText_eq]
  generalize rendered (fun _ => true) s.signed = entries
  generalize rendered (fun _ => true) s'.signed = entries'
  cases entries with
  | nil =>
    cases entries' with
    | nil => simp
    | cons entry' entries' =>
      exact iff_of_false (ne_intercalate_registerParts (entry' :: entries')) (by simp)
  | cons entry entries =>
    cases entries' with
    | nil => exact iff_of_false (ne_intercalate_registerParts (entry :: entries)).symm (by simp)
    | cons entry' entries' =>
      have plain := unspaced_registerParts writesNumbers_toString
      rw [← map_registerPart_inj writesNumbers_toString]
      exact text_intercalate_inj rfl (plain (entry :: entries)) (plain (entry' :: entries'))

end Summary

namespace Machine

open CommandLine

variable {m m' : Machine}

theorem registersText_summary_inj (wf : m.state.WellFormed) (wf' : m'.state.WellFormed) :
    m.summary.registersText = m'.summary.registersText ↔
      m.state.registers = m'.state.registers := by
  rw [Summary.registersText_inj]
  constructor
  · intro same
    apply Vector.ext
    intro i small
    have signed (m : Machine) : m.summary.signed[i]? = some (toSigned m.state.registers[i]) := by
      change (m.state.registers.toList.map toSigned)[i]? = _
      rw [List.getElem?_map, Vector.getElem?_toList, Vector.getElem?_eq_getElem small,
        Option.map_some]
    have views := eq_of_rendered_eq same rfl (signed m) (signed m')
    have word := wf ⟨i, small⟩
    have word' := wf' ⟨i, small⟩
    exact (toSigned_inj word.1 word.2 word'.1 word'.2).mp views
  · intro same
    simp only [summary, same]

theorem text_inj : m.text = m'.text ↔
    m.steps = m'.steps ∧ m.state.registers = m'.state.registers := by
  have chars (m : Machine) :
      m.text.toList =
        "[Step ".toList ++ (toString m.steps).toList ++ ']' :: ' ' :: m.state.text.toList := by
    change ("[Step " ++ toString m.steps ++ "] " ++ m.state.text).toList = _
    simp only [String.toList_append, List.append_assoc]
    rfl
  have plain (m : Machine) : ']' ∉ "[Step ".toList ++ (toString m.steps).toList :=
    List.not_mem_append (by decide) ((isNumeral_nat m.steps).not_mem (by decide))
  rw [← String.toList_inj, chars, chars, append_mark_inj (plain m) (plain m'), List.cons.injEq,
    List.append_cancel_left_eq, String.toList_inj, String.toList_inj, toString_nat_inj,
    State.text_inj]
  simp only [true_and]

theorem getLast?_finalLines {o : Options} (shown : o.quiet = false) (m : Machine) :
    (Launch.finalLines o m).getLast? = some s!"Registers: {m.summary.registersText}" := by
  simp [Launch.finalLines, shown, Summary.lines]

theorem finalLines_inj {o o' : Options} (shown : o.quiet = false) (shown' : o'.quiet = false)
    (wf : m.state.WellFormed) (wf' : m'.state.WellFormed) :
    (Launch.finalLines o m).getLast? = (Launch.finalLines o' m').getLast? ↔
      m.state.registers = m'.state.registers := by
  have label (text other : String) :
      s!"Registers: {text}" = s!"Registers: {other}" ↔ text = other := by
    change "Registers: " ++ text = "Registers: " ++ other ↔ _
    rw [← String.toList_inj, String.toList_append, String.toList_append,
      List.append_cancel_left_eq, String.toList_inj]
  rw [getLast?_finalLines shown, getLast?_finalLines shown', Option.some.injEq, label,
    registersText_summary_inj wf wf']

/-- What the texts of states and machines tell, and the line on the registers, which is printed
last. -/
theorem renderings_eq_iff :
    (∀ s s' : State, s.text = s'.text ↔ s.registers = s'.registers) ∧
    (∀ (s : State) (i : Fin 16),
      StandsIn s!"r{i.val}=" s.text ↔ i ≠ 0 ∧ s.registers.get i ≠ 0) ∧
    (∀ m m' : Machine, m.text = m'.text ↔
      m.steps = m'.steps ∧ m.state.registers = m'.state.registers) ∧
    ∀ m m' : Machine, m.state.WellFormed → m'.state.WellFormed →
      ∀ o o' : Options, o.quiet = false → o'.quiet = false →
        ((Launch.finalLines o m).getLast? = (Launch.finalLines o' m').getLast? ↔
          m.state.registers = m'.state.registers) := by
  refine ⟨fun _ _ => State.text_inj, State.standsIn_text_iff, fun _ _ => text_inj, ?_⟩
  intro m m' wf wf' o o' shown shown'
  exact finalLines_inj shown shown' wf wf'

theorem renderings_of_reset :
    let m : Machine := {}
    let m' : Machine := { state := State.assign {} 1 5 }
    let o : Options := {}
    m.state.WellFormed ∧ m'.state.WellFormed ∧ o.quiet = false ∧
      (Launch.finalLines o m).getLast? ≠ (Launch.finalLines o m').getLast? := by
  intro m m' o
  have wf : m.state.WellFormed := State.wellFormed_reset _
  have wf' : m'.state.WellFormed := wf.assign 1 (by decide) (by decide)
  refine ⟨wf, wf', rfl, ?_⟩
  intro same
  have registers := (renderings_eq_iff.2.2.2 m m' wf wf' o o rfl rfl).mp same
  exact absurd registers (by decide)

end Machine

end RegisterMachine
