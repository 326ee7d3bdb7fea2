import RegisterMachine.Proofs.Output.Encoding
import RegisterMachine.Proofs.Step.Failure

namespace RegisterMachine

structure Row where
  mnemonic : String
  size : Nat
  /-- The number of operand bytes that name registers. -/
  registers : Nat
  /-- What the three bytes after the code do in a state whose pointer has moved on. -/
  effect : State → UInt8 → UInt8 → UInt8 → Effect

def table (code : UInt8) : Option Row :=
  match code with
  | 1 => some
    { mnemonic := "movif", size := 4, registers := 3
      effect := fun s rd rs rc =>
        ⟨if s.operand rc ≠ 0 then s.assign rd (s.operand rs) else s, .succeeds false⟩ }
  | 2 => some
    { mnemonic := "store", size := 3, registers := 2
      effect := fun s ri rj _ =>
        let a := s.operand ri
        if 4092 < a then ⟨s, .fails (.fault (.spanOutside a 4))⟩
        else ⟨{ s with memory := s.memory.withWord a.toNat (s.operand rj) }, .succeeds false⟩ }
  | 3 => some
    { mnemonic := "load", size := 3, registers := 2
      effect := fun s ri rj _ =>
        let a := s.operand rj
        if 4092 < a then ⟨s, .fails (.fault (.spanOutside a 4))⟩
        else ⟨s.assign ri (s.memory.word a.toNat), .succeeds false⟩ }
  | 4 => some
    { mnemonic := "loadimm", size := 4, registers := 1
      effect := fun s ri low high =>
        let imm : Int := low.toNat + 256 * high.toNat
        ⟨s.assign ri (if imm < 32768 then imm else imm + 4294901760), .succeeds false⟩ }
  | 5 => some
    { mnemonic := "sub", size := 4, registers := 3
      effect := fun s rd ra rb =>
        ⟨s.assign rd ((s.operand ra - s.operand rb) % 4294967296), .succeeds false⟩ }
  | 6 => some
    { mnemonic := "out", size := 2, registers := 1
      effect := fun s ri _ _ =>
        ⟨s, .delivers (characterBytes (s.operand ri % 256).toNat)⟩ }
  | 7 => some
    { mnemonic := "exit", size := 1, registers := 0
      effect := fun s _ _ _ => ⟨s, .succeeds true⟩ }
  | 8 => some
    { mnemonic := "outnum", size := 2, registers := 1
      effect := fun s ri _ _ =>
        let word := s.operand ri
        ⟨s, .delivers (decimalBytes (if word < 2147483648 then word else word - 4294967296))⟩ }
  | _ => none

namespace State

def byteAhead (s : State) (k : Nat) : UInt8 := s.memory.byteAt (s.ip.toNat + k)

/-- The step that the table prescribes. A code must be there, then the register operands must name
registers and the instruction must end within memory; then the pointer moves on, and everything
else happens after that. -/
def prescribed (s : State) : Effect :=
  if 4096 ≤ s.ip then ⟨s, .fails (.fault (.pastEnd s.ip))⟩
  else
    match table (s.byteAhead 0) with
    | none => ⟨s, .fails (.fault (.unknownOpcode (s.byteAhead 0)))⟩
    | some row =>
      let operands := [s.byteAhead 1, s.byteAhead 2, s.byteAhead 3]
      match (operands.take row.registers).find? fun r => 16 ≤ r.toNat with
      | some r => ⟨s, .fails (.fault (.invalidRegister .memoryAddress r.toNat))⟩
      | none =>
        if 4096 < s.ip + row.size then ⟨s, .fails (.fault (.advancePastEnd row.mnemonic s.ip))⟩
        else
          row.effect (s.assign 0 (s.ip + row.size)) (s.byteAhead 1) (s.byteAhead 2)
            (s.byteAhead 3)

end State

structure Row.Describes (row : Row) (op : Opcode) : Prop where
  mnemonic : row.mnemonic = op.mnemonic
  size : row.size = op.size
  registers : ∀ x y z, [x, y, z].take row.registers = (op.instruction x y z).registers
  effect : ∀ {s : State}, s.WellFormed → ∀ x y z,
    row.effect s x y z = (op.instruction x y z).effect s

theorem toWord_immediate (low high : UInt8) :
    toWord (BitVec.ofNat 16 (low.toNat + 256 * high.toNat)).toInt =
      if (low.toNat + 256 * high.toNat : Int) < 32768 then (low.toNat + 256 * high.toNat : Int)
      else low.toNat + 256 * high.toNat + 4294901760 := by
  have lowBound := low.toNat_lt
  have highBound := high.toNat_lt
  simp only [BitVec.toInt_eq_toNat_bmod, BitVec.toNat_ofNat, toWord, Int.bmod]
  split <;> split <;> omega

theorem table_describes (op : Opcode) : ∃ row, table op.code = some row ∧ row.Describes op := by
  cases op with
  | moveIf =>
    refine ⟨_, rfl, rfl, rfl, fun _ _ _ => rfl, ?_⟩
    intro s wf rd rs rc
    by_cases zero : s.operand rc = 0 <;> simp [Opcode.instruction, Instruction.effect, zero]
  | store =>
    refine ⟨_, rfl, rfl, rfl, fun _ _ _ => rfl, ?_⟩
    intro s wf ri rj _
    have lower := (wf.operand ri).1
    simp only [Opcode.instruction, Instruction.effect, checkSpan_of_nonneg lower]
    by_cases high : 4092 < s.operand ri
    · simp only [high, ↓reduceIte, ↓reduceDIte]
    · simp only [high, ↓reduceIte, ↓reduceDIte, State.setWordAt, Memory.setWord_eq]
  | load =>
    refine ⟨_, rfl, rfl, rfl, fun _ _ _ => rfl, ?_⟩
    intro s wf ri rj _
    have lower := (wf.operand rj).1
    simp only [Opcode.instruction, Instruction.effect, checkSpan_of_nonneg lower]
    by_cases high : 4092 < s.operand rj
    · simp only [high, ↓reduceIte, ↓reduceDIte]
    · simp only [high, ↓reduceIte, ↓reduceDIte, State.wordAt, Memory.numberOfBytes_wordBytes]
  | loadImm =>
    refine ⟨_, rfl, rfl, rfl, fun _ _ _ => rfl, ?_⟩
    intro s wf ri low high
    simp only [Opcode.instruction, Instruction.effect, toWord_immediate]
  | sub => exact ⟨_, rfl, rfl, rfl, fun _ _ _ => rfl, fun _ _ _ _ => rfl⟩
  | out => exact ⟨_, rfl, rfl, rfl, fun _ _ _ => rfl, fun _ _ _ _ => rfl⟩
  | exit => exact ⟨_, rfl, rfl, rfl, fun _ _ _ => rfl, fun _ _ _ _ => rfl⟩
  | outNumber =>
    refine ⟨_, rfl, rfl, rfl, fun _ _ _ => rfl, ?_⟩
    intro s wf ri _ _
    obtain ⟨lower, upper⟩ := wf.operand ri
    simp only [Opcode.instruction, Instruction.effect, Instruction.payload,
      toSigned_word lower upper]

theorem table_eq_none {code : UInt8} (unknown : Opcode.ofCode? code = none) :
    table code = none := by
  unfold table
  split
  all_goals first | rfl | cases unknown

namespace State

theorem past_eq {s : State} (wf : s.WellFormed) {i : Instruction}
    (fits : s.ip + i.size ≤ 4096) :
    s.past i = s.assign 0 (s.ip + i.size) := by
  have lower := wf.ip_nonneg
  rw [past, setIp_eq, toWord_of_lt (by omega) (by omega)]
  rfl

theorem prescribed_eq {s : State} (wf : s.WellFormed) :
    s.prescribed =
      match s.pending with
      | .error e => ⟨s, .fails e⟩
      | .ok i => i.effect (s.past i) := by
  have lower : 0 ≤ s.ip := (wf 0).1
  unfold prescribed pending
  by_cases past : 4096 ≤ s.ip
  · simp only [past, ↓reduceIte, instructionAt_past]
  · have b0 : s.memory.byteAt s.ip.toNat = s.byteAhead 0 := rfl
    have b1 : s.memory.byteAt (s.ip.toNat + 1) = s.byteAhead 1 := rfl
    have b2 : s.memory.byteAt (s.ip.toNat + 2) = s.byteAhead 2 := rfl
    have b3 : s.memory.byteAt (s.ip.toNat + 3) = s.byteAhead 3 := rfl
    rw [if_neg past, instructionAt_eq s.memory lower (by omega), b0, b1, b2, b3]
    cases known : Opcode.ofCode? (s.byteAhead 0) with
    | none => simp only [table_eq_none known]
    | some op =>
      -- Row and operation agree on all that the checks read, so both reject for the same reason.
      obtain ⟨row, found, describes⟩ := table_describes op
      rw [Opcode.code_of_ofCode? known] at found
      generalize made :
        op.instruction (s.byteAhead 1) (s.byteAhead 2) (s.byteAhead 3) = i
      have opcode : i.opcode = op := by rw [← made, Opcode.opcode_instruction]
      have size : i.size = row.size := by rw [Instruction.size, opcode, describes.size]
      have mnemonic : i.opcode.mnemonic = row.mnemonic := by rw [opcode, describes.mnemonic]
      simp only [found, describes.registers, made, Instruction.advance_eq, size, mnemonic]
      cases i.registers.find? fun r => 16 ≤ r.toNat with
      | some r => simp only [Except.map]
      | none =>
        by_cases fits : s.ip + row.size ≤ 4096
        · have beyond : ¬ 4096 < s.ip + row.size := by omega
          have moved := past_eq wf (i := i) (by omega)
          rw [size] at moved
          simp only [fits, beyond, ↓reduceIte, Except.map]
          rw [← moved, ← made]
          exact describes.effect (wf.setIp _) _ _ _
        · have beyond : 4096 < s.ip + row.size := by omega
          simp only [fits, beyond, ↓reduceIte, Except.map]

end State

def Outcome.view {α : Type} (o : Outcome α) : Except Error α × Context :=
  (o.result, ⟨o.machine.state, o.sink⟩)

namespace Machine

/-- A step of a well-formed machine is the one that the instruction table prescribes, with the same
error or value, the same registers and memory and the same writes. -/
theorem step_eq_prescribed (m : Machine) (wf : m.state.WellFormed) (sink : Sink) :
    (m.step sink).map Outcome.view = m.state.prescribed.start sink := by
  rw [step_eq, State.prescribed_eq wf]
  cases m.state.pending with
  | error e =>
    simp only [Option.map_some, Outcome.view, state_logFailure, Effect.start]
  | ok i =>
    simp only [Option.map_map]
    cases (i.effect (m.state.past i)).start sink with
    | none => rfl
    | some ended =>
      simp only [Option.map_some, Function.comp_apply, Outcome.view, state_settle]

theorem step_eq_prescribed_store :
    let s : State :=
      { registers := (Vector.replicate 16 0).set 1 4093, memory := Memory.ofImage #[2, 1, 0] }
    let m : Machine := { state := s }
    m.state.WellFormed ∧
      (m.step {}).map Outcome.view =
        some (.error (.fault (.spanOutside 4093 4)),
          ⟨s.assign 0 3, {}⟩) := by
  intro s m
  have wf : m.state.WellFormed := by decide
  have ip : s.ip = 0 := rfl
  have bytes : ∀ k < 4, s.byteAhead k = #[2, 1, 0].getD k 0 := by
    intro k low
    rw [State.byteAhead, ip, Memory.byteAt_ofImage _ (by omega), Int.toNat_zero, Nat.zero_add]
  have prescribed : s.prescribed =
      ⟨s.assign 0 3, .fails (.fault (.spanOutside 4093 4))⟩ := by
    rw [State.prescribed, ip, bytes 0 (by decide), bytes 1 (by decide), bytes 2 (by decide),
      bytes 3 (by decide)]
    rfl
  refine ⟨wf, ?_⟩
  rw [m.step_eq_prescribed wf, prescribed]
  rfl

end Machine

end RegisterMachine
