import RegisterMachine.Machine.Trace
import RegisterMachine.Proofs.Text.Numerals

namespace RegisterMachine

def linesOf (text : String) : List String :=
  if text.isEmpty then [] else (text.toList.splitOn '\n').map String.ofList

def IsLine (text : String) : Prop := '\n' ∉ text.toList

instance (text : String) : Decidable (IsLine text) := inferInstanceAs (Decidable (¬ _))

theorem linesOf_intercalate {lines : List String} (nonempty : ∀ line ∈ lines, line ≠ "")
    (single : ∀ line ∈ lines, IsLine line) : linesOf ("\n".intercalate lines) = lines := by
  cases lines with
  | nil => rfl
  | cons line lines =>
    have chars : ("\n".intercalate (line :: lines)).toList =
        ['\n'].intercalate ((line :: lines).map String.toList) := by
      rw [String.toList_intercalate]
      rfl
    have written : ("\n".intercalate (line :: lines)).isEmpty = false := by
      have first := nonempty line List.mem_cons_self
      cases lines with
      | nil => simpa using first
      | cons second lines => simp
    have parted : ∀ chars ∈ (line :: lines).map String.toList, '\n' ∉ chars := by
      simpa [IsLine] using single
    have back : ((line :: lines).map String.toList).map String.ofList = line :: lines := by
      simp [Function.comp_def]
    rw [linesOf, written, if_neg Bool.false_ne_true, chars]
    rw [List.splitOn_intercalate '\n' parted (by simp), back]

theorem isLine_append {first second : String} :
    IsLine (first ++ second) ↔ IsLine first ∧ IsLine second := by
  simp only [IsLine, String.toList_append, List.mem_append, not_or]

theorem isLine_hexNumeral (width : Nat) (x : Int) : IsLine (hexNumeral width x) :=
  (isNumeral_hexNumeral width x).not_mem (by decide)

def instructionChars : List Char := numeralChars ++ " ,movistrlun".toList

def changeChars : List Char := numeralChars ++ "r: >".toList

/-- The characters of the lines of a trace, without those of the notes in them. -/
def lineChars : List Char := instructionChars ++ "[]:>".toList

theorem consistsOf_assemblyText {mnemonic : String} (plain : ConsistsOf instructionChars mnemonic)
    (registers : List Int) (value? : Option Int) :
    ConsistsOf instructionChars (assemblyText mnemonic registers value?) := by
  have number (x : Int) : ConsistsOf instructionChars (toString x) :=
    (isNumeral_int x).mono (List.subset_append_left _ _)
  have operand : ∀ part ∈ registers.map (fun r => s!"r{r}") ++
      value?.toList.map (fun value => s!"{toSigned value}"),
      ConsistsOf instructionChars part := by
    intro part member
    rcases List.mem_append.mp member with member | member
    · obtain ⟨r, -, rfl⟩ := List.mem_map.mp member
      have name : ConsistsOf instructionChars "r" := by decide
      exact consistsOf_append.mpr ⟨name, number r⟩
    · obtain ⟨value, -, rfl⟩ := List.mem_map.mp member
      exact number (toSigned value)
  have comma : ConsistsOf instructionChars ", " := by decide
  have operands := consistsOf_intercalate comma operand
  have gap : ConsistsOf instructionChars " " := by decide
  simp only [assemblyText]
  split
  · exact plain
  · exact consistsOf_append.mpr ⟨consistsOf_append.mpr ⟨plain, gap⟩, operands⟩

namespace Instruction

theorem consistsOf_text (i : Instruction) : ConsistsOf instructionChars i.text := by
  have mnemonic : ConsistsOf instructionChars i.opcode.mnemonic := by
    cases i.opcode <;> decide
  exact consistsOf_assemblyText mnemonic _ _

theorem isLine_text (i : Instruction) : IsLine i.text := i.consistsOf_text.not_mem (by decide)

end Instruction

namespace StepRecord

variable (r : StepRecord)

def heading : String := s!"[{r.step}] {addressText r.ip}: {r.instruction.text}"

theorem consistsOf_lineChars {text : String} (numeral : IsNumeral text) :
    ConsistsOf lineChars text :=
  numeral.mono (List.subset_append_of_subset_left _ (List.subset_append_left _ _))

theorem consistsOf_heading : ConsistsOf lineChars r.heading := by
  have step := consistsOf_lineChars (isNumeral_nat r.step)
  have address := consistsOf_lineChars (isNumeral_hexNumeral 6 r.ip)
  have instruction : ConsistsOf lineChars r.instruction.text :=
    r.instruction.consistsOf_text.mono (List.subset_append_left _ _)
  simp only [heading, consistsOf_append]
  refine ⟨⟨⟨⟨⟨?_, step⟩, ?_⟩, address⟩, ?_⟩, instruction⟩
  all_goals decide

theorem consistsOf_changes : ∀ change ∈ r.changes, ConsistsOf changeChars change := by
  intro change member
  obtain ⟨⟨⟨before, after⟩, i⟩, -, rfl⟩ := List.mem_map.mp member
  have numeral {text : String} (plain : IsNumeral text) : ConsistsOf changeChars text :=
    plain.mono (List.subset_append_left _ _)
  have number := numeral (isNumeral_nat i)
  have content (x : Int) := numeral (isNumeral_hexNumeral 0 x)
  simp only [consistsOf_append]
  refine ⟨⟨⟨⟨⟨?_, number⟩, ?_⟩, content before⟩, ?_⟩, content after⟩
  all_goals decide

theorem consistsOf_intercalate_changes : ConsistsOf lineChars (", ".intercalate r.changes) := by
  have comma : ConsistsOf lineChars ", " := by decide
  have within : changeChars ⊆ lineChars := by decide
  apply consistsOf_intercalate comma
  intro change member
  exact (r.consistsOf_changes change member).mono within

theorem isLine_text : IsLine r.text := by
  have heading : IsLine r.heading := r.consistsOf_heading.not_mem (by decide)
  have changes : IsLine (", ".intercalate r.changes) :=
    r.consistsOf_intercalate_changes.not_mem (by decide)
  have target := isLine_hexNumeral 6 r.nextIp
  unfold text
  rw [isLine_append, isLine_append, isLine_append]
  refine ⟨⟨⟨heading, ?_⟩, ?_⟩, ?_⟩
  · split
    · decide
    · simp only [isLine_append]
      refine ⟨⟨?_, changes⟩, ?_⟩
      all_goals decide
  · split
    · refine isLine_append.mpr ⟨?_, target⟩
      decide
    · decide
  · split <;> decide

theorem exists_text_eq : ∃ rest, r.text = "[" ++ rest := by
  simp only [text, String.append_assoc]
  exact ⟨_, rfl⟩

theorem text_ne_empty : r.text ≠ "" := by
  obtain ⟨rest, bracket⟩ := r.exists_text_eq
  rw [bracket]
  simp

end StepRecord

theorem Trace.linesOf_text (t : Trace) : linesOf t.text = t.records.map StepRecord.text := by
  apply linesOf_intercalate
  · simpa using fun r _ => r.text_ne_empty
  · simpa using fun r _ => r.isLine_text

end RegisterMachine
