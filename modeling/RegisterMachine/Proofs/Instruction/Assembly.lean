import RegisterMachine.Proofs.Instruction.Format
import RegisterMachine.Proofs.Text.Numerals

namespace RegisterMachine

def Opcode.ofMnemonic? (name : List Char) : Option Opcode := all.find? (·.mnemonic.toList = name)

def assemblyWords (text : String) : List (List Char) := (text.toList.filter (· ≠ ',')).splitOn ' '

def operandBytes? : List Char → Option (List UInt8)
  | 'r' :: digits => (readDigits? digits).map fun n => [n.toUInt8]
  | digits => (readDecimal? digits).map lowBytes

def wordBytes? : List (List Char) → Option (List UInt8)
  | [] => none
  | mnemonic :: operands => do
    let op ← Opcode.ofMnemonic? mnemonic
    let bytes ← operands.mapM operandBytes?
    return op.code :: bytes.flatten

namespace Instruction

/-- The bytes of the instruction with a given text, if there is one. -/
def assemble? (text : String) : Option (List UInt8) :=
  match (wordBytes? (assemblyWords text)).map decode with
  | some (.ok i) => if i.text = text then some i.encode else none
  | _ => none

structure TextRules : Prop where
  shown : ∀ window i, decode window = .ok i → i.toOperation.text = .ok i.text
  tells : ∀ window other i j, decode window = .ok i → decode other = .ok j →
    (i.text = j.text ↔ i.toOperation.raw = j.toOperation.raw)
  assembles : ∀ window i, decode window = .ok i → assemble? i.text = some (window.take i.size)
  assembled : ∀ text bytes, assemble? text = some bytes →
    ∃ i, decode bytes = .ok i ∧ i.text = text ∧ i.toOperation.raw = bytes

end Instruction

theorem Opcode.ofMnemonic?_mnemonic (op : Opcode) : ofMnemonic? op.mnemonic.toList = some op := by
  cases op <;> decide

theorem Opcode.solid_mnemonic (op : Opcode) :
    ' ' ∉ op.mnemonic.toList ∧ ',' ∉ op.mnemonic.toList := by
  cases op <;> decide

theorem filter_of_plain {word : List Char} (plain : ',' ∉ word) : word.filter (· ≠ ',') = word := by
  apply List.filter_eq_self.mpr
  intro c member
  have other : c ≠ ',' := by
    rintro rfl
    exact plain member
  simpa using other

theorem filter_intercalate {words : List (List Char)} (plain : ∀ word ∈ words, ',' ∉ word) :
    ([',', ' '].intercalate words).filter (· ≠ ',') = [' '].intercalate words := by
  induction words with
  | nil => rfl
  | cons word words ih =>
    rw [List.forall_mem_cons] at plain
    have rest := ih plain.2
    cases words with
    | nil => simpa using filter_of_plain plain.1
    | cons second words =>
      rw [List.intercalate_cons_cons, List.intercalate_cons_cons, List.filter_append,
        List.filter_append, rest, filter_of_plain plain.1]
      rfl

def operandTexts (registers : List UInt8) (value? : Option Int) : List String :=
  registers.map (fun r => s!"r{(r.toNat : Int)}") ++
    value?.toList.map fun value => s!"{toSigned value}"

theorem toList_registerText (r : UInt8) :
    s!"r{(r.toNat : Int)}".toList = 'r' :: (toString (r.toNat : Int)).toList := by
  change ("r" ++ toString (r.toNat : Int)).toList = _
  rw [String.toList_append]
  rfl

theorem solid_operandTexts (registers : List UInt8) (value? : Option Int) :
    ∀ text ∈ operandTexts registers value?, ' ' ∉ text.toList ∧ ',' ∉ text.toList := by
  intro text member
  rcases List.mem_append.mp member with member | member
  · rcases List.mem_map.mp member with ⟨r, -, rfl⟩
    have number := isNumeral_int (r.toNat : Int)
    have blank : ' ' ∉ (toString (r.toNat : Int)).toList := number.not_mem (by decide)
    have comma : ',' ∉ (toString (r.toNat : Int)).toList := number.not_mem (by decide)
    rw [toList_registerText]
    exact ⟨List.not_mem_cons_of_ne_of_not_mem (by decide) blank,
      List.not_mem_cons_of_ne_of_not_mem (by decide) comma⟩
  · rcases List.mem_map.mp member with ⟨value, -, rfl⟩
    have number := isNumeral_int (toSigned value)
    exact ⟨number.not_mem (by decide), number.not_mem (by decide)⟩

namespace Instruction

variable {window other : List UInt8} {i j : Instruction}

theorem text_eq (i : Instruction) :
    i.text =
      if (operandTexts i.registers i.value?).isEmpty then i.opcode.mnemonic
      else i.opcode.mnemonic ++ " " ++ ", ".intercalate (operandTexts i.registers i.value?) := by
  rw [text, assemblyText, List.map_map]
  rfl

theorem assemblyWords_text (i : Instruction) :
    assemblyWords i.text =
      i.opcode.mnemonic.toList :: (operandTexts i.registers i.value?).map String.toList := by
  have mnemonic := i.opcode.solid_mnemonic
  have solid := solid_operandTexts i.registers i.value?
  rw [text_eq]
  generalize operandTexts i.registers i.value? = operands at solid ⊢
  have plain : ∀ word ∈ operands.map String.toList, ',' ∉ word :=
    List.forall_mem_map.mpr fun text member => (solid text member).2
  -- Without the commas a text is its words with single blanks between them.
  have unmarked : (if operands.isEmpty then i.opcode.mnemonic
      else i.opcode.mnemonic ++ " " ++ ", ".intercalate operands).toList.filter (· ≠ ',') =
      [' '].intercalate (i.opcode.mnemonic.toList :: operands.map String.toList) := by
    cases operands with
    | nil => simpa using filter_of_plain mnemonic.2
    | cons first operands =>
      rw [List.map_cons, List.intercalate_cons_cons, ← List.map_cons, ← filter_intercalate plain]
      simp only [List.isEmpty_cons, Bool.false_eq_true, ↓reduceIte, String.toList_append,
        String.toList_intercalate, List.filter_append, filter_of_plain mnemonic.2]
      rfl
  rw [assemblyWords, unmarked]
  apply List.splitOn_intercalate
  · rw [List.forall_mem_cons, List.forall_mem_map]
    exact ⟨mnemonic.1, fun text member => (solid text member).1⟩
  · exact List.cons_ne_nil _ _

theorem lowBytes_toSigned (value : Int) : lowBytes (toSigned value) = lowBytes value := by
  have same : toSigned value % 4294967296 = value % 4294967296 := toWord_toSigned value
  have low : toSigned value % 256 = value % 256 := by omega
  have high : toSigned value / 256 % 256 = value / 256 % 256 := by omega
  rw [lowBytes, lowBytes, low, high]

theorem operandBytes?_register (r : UInt8) :
    operandBytes? s!"r{(r.toNat : Int)}".toList = some [r] := by
  have digits : (toString (r.toNat : Int)).toList = Nat.toDigits 10 r.toNat := Nat.toList_repr
  rw [toList_registerText, digits, operandBytes?, readDigits?_toDigits]
  simp

theorem operandBytes?_value (value : Int) :
    operandBytes? s!"{toSigned value}".toList = some (lowBytes value) := by
  have numeral := isNumeral_int (toSigned value)
  have other : 'r' ∉ s!"{toSigned value}".toList := numeral.not_mem (by decide)
  unfold operandBytes?
  split
  · rename_i same
    rw [same] at other
    exact absurd List.mem_cons_self other
  · change (readDecimal? (toString (toSigned value)).toList).map lowBytes = _
    rw [readDecimal?_toString, Option.map_some, lowBytes_toSigned]

theorem mapM_operandBytes? (registers : List UInt8) (value? : Option Int) :
    ((operandTexts registers value?).map String.toList).mapM operandBytes? =
      some (registers.map ([·]) ++ value?.toList.map lowBytes) := by
  induction registers with
  | nil =>
    cases value? with
    | none => rfl
    | some value =>
      change [_].mapM operandBytes? = _
      rw [List.mapM_cons, operandBytes?_value]
      rfl
  | cons r registers ih =>
    change (_ :: (operandTexts registers value?).map String.toList).mapM operandBytes? = _
    rw [List.mapM_cons, operandBytes?_register, ih]
    rfl

theorem wordBytes?_text (i : Instruction) :
    wordBytes? (assemblyWords i.text) = some i.encode := by
  have bytes : (i.registers.map ([·]) ++ i.value?.toList.map lowBytes).flatten =
      i.registers ++ i.value?.toList.flatMap lowBytes := by
    rw [List.flatten_append, ← List.flatMap_def, ← List.flatMap_def, List.flatMap_singleton']
  rw [assemblyWords_text, wordBytes?, Opcode.ofMnemonic?_mnemonic, mapM_operandBytes?, encode_eq]
  exact congrArg (fun rest => some (i.opcode.code :: rest)) bytes

theorem assemble?_text (i : Instruction) : assemble? i.text = some i.encode := by
  simp only [assemble?, wordBytes?_text, Option.map_some, decode_encode, ↓reduceIte]

theorem assemble?_eq_some_iff {text : String} {bytes : List UInt8} :
    assemble? text = some bytes ↔ ∃ i : Instruction, i.text = text ∧ i.encode = bytes := by
  constructor
  · intro assembled
    unfold assemble? at assembled
    split at assembled
    · rename_i i read
      split at assembled
      · rename_i same
        exact ⟨i, same, Option.some.inj assembled⟩
      · cases assembled
    · cases assembled
  · rintro ⟨i, rfl, rfl⟩
    exact assemble?_text i

theorem text_inj : i.text = j.text ↔ i = j := by
  constructor
  · intro same
    have bytes := assemble?_text i
    rw [same, assemble?_text, Option.some.injEq] at bytes
    exact (encode_inj.mp bytes).symm
  · rintro rfl
    rfl

/-- The text of an instruction tells its bytes, whatever they are, and nothing else. -/
theorem text_rules : TextRules where
  shown := fun _ i _ => text_toOperation i
  tells := by
    intro window other i j _ _
    exact text_inj.trans encode_inj.symm
  assembles := by
    intro window i decoded
    rw [assemble?_text, encode_eq_take decoded]
  assembled := by
    intro text bytes assembled
    rcases assemble?_eq_some_iff.mp assembled with ⟨i, shown, rfl⟩
    exact ⟨i, decode_encode i, shown, rfl⟩

example : assemble? "loadimm r200, -2" = some [4, 200, 0xFE, 0xFF] := by decide +kernel

end Instruction

end RegisterMachine
