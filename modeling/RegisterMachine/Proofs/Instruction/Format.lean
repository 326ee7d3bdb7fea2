import RegisterMachine.Instruction
import RegisterMachine.Proofs.State.Words

namespace RegisterMachine

def lowBytes (value : Int) : List UInt8 :=
  [(value % 256).toNat.toUInt8, (value / 256 % 256).toNat.toUInt8]

/-- The bytes of an operation: its code, its registers in the order of their names, and the low
bytes of its value. -/
def Operation.encode (op : Operation) : List UInt8 :=
  op.code.toNat.toUInt8 ::
    op.registerNames.map (fun name => ((op.operands.lookup name).getD 0).toNat.toUInt8) ++
    ((op.operands.lookup valueName).toList.flatMap lowBytes)

def Opcode.operation (op : Opcode) (registers : List UInt8) (value? : Option Int) : Operation where
  key := op.key
  mnemonic := op.mnemonic
  size := op.size
  code := op.code.toNat
  registerNames := op.registerNames
  operands := op.registerNames.zip (registers.map fun r => (r.toNat : Int)) ++
    value?.toList.map (valueName, ·)
  raw := op.code :: registers ++ value?.toList.flatMap lowBytes

/-- The operations that the format can write. Register bytes need not name registers that exist,
and a value is one of 16 bits with its sign extended to a word. -/
inductive Operation.Encodable : Operation → Prop
  | registers {op : Opcode} {registers : List UInt8} (plain : op ≠ .loadImm)
    (count : registers.length = op.registerNames.length) : Encodable (op.operation registers none)
  | immediate (ri : UInt8) {value : Int} (lower : -32768 ≤ value) (upper : value < 32768) :
    Encodable (Opcode.loadImm.operation [ri] (some (toWord value)))

inductive Instruction.Reads : List UInt8 → Except Error Instruction → Prop
  | empty : Reads [] (.error .truncatedWindow)
  | unknown {code : UInt8} {rest : List UInt8} (other : ∀ op : Opcode, op.code ≠ code) :
    Reads (code :: rest) (.error (.fault (.unknownOpcode code)))
  | short {op : Opcode} {rest : List UInt8} (short : rest.length + 1 < op.size) :
    Reads (op.code :: rest) (.error .truncatedWindow)
  | instruction (i : Instruction) (rest : List UInt8) : Reads (i.encode ++ rest) (.ok i)

/-- The rules of the format, on byte strings of any length. -/
structure Instruction.FormatRules : Prop where
  unknown : ∀ window f, decode window = .error (.fault f) ↔
    ∃ code rest, window = code :: rest ∧ (∀ op : Opcode, op.code ≠ code) ∧ f = .unknownOpcode code
  truncated : ∀ window, decode window = .error .truncatedWindow ↔
    window = [] ∨ ∃ (op : Opcode) (rest : List UInt8), window = op.code :: rest ∧
      window.length < op.size
  reads : ∀ (op : Opcode) (rest window : List UInt8), window = op.code :: rest →
    op.size ≤ window.length →
    ∃ i, decode window = .ok i ∧ i.opcode = op ∧ i.toOperation.Encodable ∧
      i.toOperation.raw = window.take op.size ∧ i.toOperation.encode = window.take op.size ∧
      ∀ other, other.take op.size = window.take op.size → decode other = .ok i
  writes : ∀ op : Operation, op.Encodable →
    ∀ rest, (decode (op.encode ++ rest)).map toOperation = .ok op
  equal : ∀ window other i j, decode window = .ok i → decode other = .ok j →
    (i.toOperation = j.toOperation ↔ window.take i.size = other.take j.size)

theorem Opcode.ofCode?_eq_none_iff {code : UInt8} :
    ofCode? code = none ↔ ∀ op : Opcode, op.code ≠ code := by
  constructor
  · rintro unknown op rfl
    rw [ofCode?_code] at unknown
    cases unknown
  · intro other
    cases known : ofCode? code with
    | none => rfl
    | some op => exact absurd (code_of_ofCode? known) (other op)

namespace Instruction

theorem toNat_byte (n : Nat) : n.toUInt8.toNat = n % 256 := UInt8.toNat_ofNat'

theorem immediate_of_bytes (imm : BitVec 16) :
    BitVec.ofNat 16 (imm.toNat.toUInt8.toNat + 256 * (imm.toNat / 256).toUInt8.toNat) = imm := by
  have bound := imm.isLt
  apply BitVec.eq_of_toNat_eq
  rw [BitVec.toNat_ofNat, toNat_byte, toNat_byte]
  omega

theorem bytes_of_immediate (low high : UInt8) :
    [(BitVec.ofNat 16 (low.toNat + 256 * high.toNat)).toNat.toUInt8,
      ((BitVec.ofNat 16 (low.toNat + 256 * high.toNat)).toNat / 256).toUInt8] = [low, high] := by
  have lowBound := low.toNat_lt
  have highBound := high.toNat_lt
  have first : (BitVec.ofNat 16 (low.toNat + 256 * high.toNat)).toNat.toUInt8 = low := by
    apply UInt8.toNat_inj.mp
    rw [toNat_byte, BitVec.toNat_ofNat]
    omega
  have second : ((BitVec.ofNat 16 (low.toNat + 256 * high.toNat)).toNat / 256).toUInt8 = high := by
    apply UInt8.toNat_inj.mp
    rw [toNat_byte, BitVec.toNat_ofNat]
    omega
  rw [first, second]

theorem ofOperandBytes?_encode (i : Instruction) (rest : List UInt8) :
    ∃ bytes, i.encode = i.opcode.code :: bytes ∧
      ofOperandBytes? i.opcode (bytes ++ rest) = some i := by
  cases i with
  | loadImm ri imm =>
    refine ⟨_, rfl, ?_⟩
    change some (loadImm ri _) = _
    rw [immediate_of_bytes]
  | _ => exact ⟨_, rfl, rfl⟩

theorem encode_prefix_of_operandBytes {op : Opcode} {rest : List UInt8} {i : Instruction}
    (found : ofOperandBytes? op rest = some i) : i.opcode = op ∧ i.encode <+: op.code :: rest := by
  unfold ofOperandBytes? at found
  split at found
  all_goals cases found
  case h_4 ri low high rest =>
    refine ⟨rfl, rest, ?_⟩
    change 4 :: ri :: ([_, _] ++ rest) = 4 :: ri :: ([low, high] ++ rest)
    rw [bytes_of_immediate]
  all_goals exact ⟨rfl, _, rfl⟩

theorem ofOperandBytes?_eq_none_iff {op : Opcode} {rest : List UInt8} :
    ofOperandBytes? op rest = none ↔ rest.length + 1 < op.size := by
  rcases rest with _ | ⟨x, _ | ⟨y, _ | ⟨z, rest⟩⟩⟩
  all_goals cases op <;> simp [ofOperandBytes?, Opcode.size]

theorem decode_of_operandBytes {op : Opcode} {rest : List UInt8} {i : Instruction}
    (found : ofOperandBytes? op rest = some i) : decode (op.code :: rest) = .ok i := by
  simp only [decode, Opcode.ofCode?_code, found]

theorem decode_of_short {op : Opcode} {rest : List UInt8} (short : rest.length + 1 < op.size) :
    decode (op.code :: rest) = .error .truncatedWindow := by
  simp only [decode, Opcode.ofCode?_code, ofOperandBytes?_eq_none_iff.mpr short]

theorem reads_decode (window : List UInt8) : Reads window (decode window) := by
  cases window with
  | nil => exact .empty
  | cons code rest =>
    cases known : Opcode.ofCode? code with
    | none =>
      rw [decode, known]
      exact .unknown (Opcode.ofCode?_eq_none_iff.mp known)
    | some op =>
      obtain rfl := Opcode.code_of_ofCode? known
      cases found : ofOperandBytes? op rest with
      | none =>
        have short := ofOperandBytes?_eq_none_iff.mp found
        rw [decode_of_short short]
        exact .short short
      | some i =>
        obtain ⟨-, more, split⟩ := encode_prefix_of_operandBytes found
        rw [decode_of_operandBytes found, ← split]
        exact .instruction i more

theorem reads_iff {window : List UInt8} {result : Except Error Instruction} :
    Reads window result ↔ decode window = result := by
  constructor
  · intro reads
    cases reads with
    | empty => rfl
    | unknown other => rw [decode, Opcode.ofCode?_eq_none_iff.mpr other]
    | short short => exact decode_of_short short
    | instruction i rest =>
      obtain ⟨bytes, encoded, found⟩ := i.ofOperandBytes?_encode rest
      rw [encoded, List.cons_append, decode_of_operandBytes found]
  · rintro rfl
    exact reads_decode window

theorem decode_eq_ok_iff {window : List UInt8} {i : Instruction} :
    decode window = .ok i ↔ i.encode <+: window := by
  constructor
  · intro decoded
    cases reads_iff.mpr decoded with
    | instruction _ rest => exact ⟨rest, rfl⟩
  · rintro ⟨rest, rfl⟩
    exact reads_iff.mp (.instruction i rest)

example : decode [4, 1, 0x00, 0x80, 7] = .ok (.loadImm 1 (BitVec.intMin 16)) := rfl

theorem encode_eq_take {window : List UInt8} {i : Instruction} (decoded : decode window = .ok i) :
    i.encode = window.take i.size := by
  rw [← length_encode]
  exact List.prefix_iff_eq_take.mp (decode_eq_ok_iff.mp decoded)

theorem size_le_four (i : Instruction) : i.size ≤ 4 := by
  change i.opcode.size ≤ 4
  cases i.opcode <;> decide

theorem decode_encode (i : Instruction) : decode i.encode = .ok i :=
  decode_eq_ok_iff.mpr (List.prefix_refl _)

theorem lowBytes_immediate (imm : BitVec 16) :
    lowBytes (toWord imm.toInt) = [imm.toNat.toUInt8, (imm.toNat / 256).toUInt8] := by
  have bound := imm.isLt
  have same : toWord imm.toInt % 65536 = imm.toNat := by
    simp only [toWord, BitVec.toInt_eq_toNat_bmod, Int.bmod]
    split <;> omega
  have low : imm.toNat.toUInt8 = (toWord imm.toInt % 256).toNat.toUInt8 :=
    Memory.toUInt8_eq (by omega)
  have high : (imm.toNat / 256).toUInt8 = (toWord imm.toInt / 256 % 256).toNat.toUInt8 :=
    Memory.toUInt8_eq (by omega)
  rw [lowBytes, low, high]

theorem encode_eq (i : Instruction) :
    i.encode = i.opcode.code :: i.registers ++ i.value?.toList.flatMap lowBytes := by
  cases i with
  | loadImm ri imm =>
    change [4, ri] ++ [_, _] = [4, ri] ++ lowBytes (toWord imm.toInt)
    rw [lowBytes_immediate]
  | _ => rfl

theorem toOperation_eq (i : Instruction) :
    i.toOperation = i.opcode.operation i.registers i.value? := by
  rw [toOperation, encode_eq]
  rfl

theorem map_registerNames (i : Instruction) :
    i.opcode.registerNames.map (fun name => ((i.operands.lookup name).getD 0).toNat.toUInt8) =
      i.registers := by
  have named : i.opcode.registerNames.map (fun name => (i.operands.lookup name).getD 0) =
      i.registers.map fun r => (r.toNat : Int) := by
    cases i <;> rfl
  have byte : (Nat.toUInt8 ∘ Int.toNat) ∘ (fun r : UInt8 => (r.toNat : Int)) = id := by
    funext r
    exact UInt8.ofNat_toNat
  have bytes := congrArg (List.map (Nat.toUInt8 ∘ Int.toNat)) named
  rw [List.map_map, List.map_map, byte, List.map_id] at bytes
  exact bytes

theorem encode_toOperation (i : Instruction) : i.toOperation.encode = i.encode := by
  have value : i.operands.lookup valueName = i.value? := by
    cases i <;> rfl
  have code : (i.opcode.code.toNat : Int).toNat.toUInt8 = i.opcode.code := UInt8.ofNat_toNat
  simp only [Operation.encode, toOperation, map_registerNames, value, code, encode_eq]

theorem encodable_toOperation (i : Instruction) : i.toOperation.Encodable := by
  rw [toOperation_eq]
  cases i with
  | loadImm ri imm => exact .immediate ri imm.le_toInt imm.toInt_lt
  | _ => exact .registers nofun rfl

theorem value?_of_plain {i : Instruction} (plain : i.opcode ≠ .loadImm) : i.value? = none := by
  cases i with
  | loadImm => exact absurd rfl plain
  | _ => rfl

theorem exists_of_encodable {op : Operation} (encodable : op.Encodable) :
    ∃ i : Instruction, i.toOperation = op := by
  cases encodable with
  | @registers op bytes plain count =>
    have size : op.size = op.registerNames.length + 1 := by
      cases op with
      | loadImm => exact absurd rfl plain
      | _ => rfl
    have enough : ¬ bytes.length + 1 < op.size := by omega
    cases found : ofOperandBytes? op bytes with
    | none => exact absurd (ofOperandBytes?_eq_none_iff.mp found) enough
    | some i =>
      -- The bytes of the instruction are as many as the given ones, so they are all of them.
      obtain ⟨rfl, begins⟩ := encode_prefix_of_operandBytes found
      have all : i.encode = i.opcode.code :: bytes := by
        apply begins.eq_of_length
        rw [length_encode, List.length_cons, count]
        exact size
      have none := value?_of_plain plain
      rw [encode_eq, none] at all
      have registers : i.registers = bytes := by simpa using all
      exact ⟨i, by rw [toOperation_eq, none, registers]⟩
  | @immediate ri value lower upper =>
    refine ⟨.loadImm ri (BitVec.ofInt 16 value), ?_⟩
    have signed : (BitVec.ofInt 16 value).toInt = value := by
      rw [BitVec.toInt_ofInt]
      exact Int.bmod_eq_of_le (by omega) (by omega)
    rw [toOperation_eq]
    simp only [value?, signed]
    rfl

theorem encode_inj {i j : Instruction} : i.encode = j.encode ↔ i = j := by
  constructor
  · intro same
    have read := i.decode_encode
    rw [same, decode_encode] at read
    cases read
    rfl
  · rintro rfl
    rfl

theorem toOperation_inj {i j : Instruction} : i.toOperation = j.toOperation ↔ i = j := by
  constructor
  · intro same
    exact encode_inj.mp (congrArg Operation.raw same)
  · rintro rfl
    rfl

theorem decode_eq_fault_iff {window : List UInt8} {f : Fault} :
    decode window = .error (.fault f) ↔
      ∃ code rest, window = code :: rest ∧ (∀ op : Opcode, op.code ≠ code) ∧
        f = .unknownOpcode code := by
  constructor
  · intro failed
    cases reads_iff.mpr failed with
    | unknown other => exact ⟨_, _, rfl, other, rfl⟩
  · rintro ⟨code, rest, rfl, other, rfl⟩
    exact reads_iff.mp (.unknown other)

theorem decode_eq_truncated_iff {window : List UInt8} :
    decode window = .error .truncatedWindow ↔
      window = [] ∨ ∃ (op : Opcode) (rest : List UInt8), window = op.code :: rest ∧
        window.length < op.size := by
  constructor
  · intro failed
    cases reads_iff.mpr failed with
    | empty => exact .inl rfl
    | short short => exact .inr ⟨_, _, rfl, short⟩
  · rintro (rfl | ⟨op, rest, rfl, short⟩)
    · exact reads_iff.mp .empty
    · exact reads_iff.mp (.short short)

theorem exists_decode {op : Opcode} {rest : List UInt8}
    (long : op.size ≤ (op.code :: rest).length) :
    ∃ i, i.opcode = op ∧ decode (op.code :: rest) = .ok i := by
  have enough : ¬ rest.length + 1 < op.size := Nat.not_lt.mpr long
  cases found : ofOperandBytes? op rest with
  | none => exact absurd (ofOperandBytes?_eq_none_iff.mp found) enough
  | some i =>
    obtain ⟨same, -⟩ := encode_prefix_of_operandBytes found
    exact ⟨i, same, decode_of_operandBytes found⟩

theorem decode_of_take_eq {window other : List UInt8} {i : Instruction}
    (decoded : decode window = .ok i) (same : other.take i.size = window.take i.size) :
    decode other = .ok i := by
  rw [decode_eq_ok_iff, encode_eq_take decoded, ← same]
  exact List.take_prefix _ _

theorem format_rules : FormatRules where
  unknown := fun _ _ => decode_eq_fault_iff
  truncated := fun _ => decode_eq_truncated_iff
  reads := by
    rintro op rest window rfl long
    obtain ⟨i, rfl, decoded⟩ := exists_decode long
    have bytes := encode_eq_take decoded
    refine ⟨i, decoded, rfl, i.encodable_toOperation, bytes, ?_, ?_⟩
    · rw [encode_toOperation]
      exact bytes
    · intro other same
      exact decode_of_take_eq decoded same
  writes := by
    intro op encodable rest
    obtain ⟨i, rfl⟩ := exists_of_encodable encodable
    rw [encode_toOperation, decode_eq_ok_iff.mpr (List.prefix_append _ _)]
    rfl
  equal := by
    intro window other i j decoded decoded'
    rw [← encode_eq_take decoded, ← encode_eq_take decoded', toOperation_inj, encode_inj]

end Instruction

end RegisterMachine
