import RegisterMachine.Proofs.Step.Record
import RegisterMachine.Proofs.Step.Writes

namespace RegisterMachine

/-- The addresses that a step from a state reads: where its code is, the bytes of its instruction as
far as they lie in memory, and the word that it loads. -/
inductive State.Uses (s : State) : Nat → Prop
  | code (inside : s.ip < 4096) : Uses s s.ip.toNat
  | operand {op : Opcode} {k : Nat} (code : s.memory.byteAt s.ip.toNat = op.code)
    (within : k < op.size) (inside : s.ip.toNat + k < 4096) : Uses s (s.ip.toNat + k)
  | loaded {ri rj : UInt8} {k : Nat} (pending : s.pending = .ok (.load ri rj))
    (span : (s.past (.load ri rj)).operand rj + 4 ≤ 4096) (within : k < 4) :
    Uses s (((s.past (.load ri rj)).operand rj).toNat + k)

structure State.Agrees (s₁ s₂ : State) : Prop where
  wellFormed : s₁.WellFormed
  registers : s₁.registers = s₂.registers
  bytes : ∀ a, s₁.Uses a → s₁.memory.byteAt a = s₂.memory.byteAt a

def State.stored? (s : State) : Option (Nat × Int) :=
  match s.pending with
  | .error _ => none
  | .ok i => i.stored? (s.past i)

structure Effect.Alike (e₁ e₂ : Effect) : Prop where
  registers : e₁.state.registers = e₂.state.registers
  ending : e₁.ending = e₂.ending

def Effect.seen (ended : Except Error Bool × Context) : Except Error Bool × Registers × Sink :=
  (ended.1, ended.2.state.registers, ended.2.sink)

/-- All that an outcome shows besides memory and diagnostics. -/
def Outcome.seen (o : Outcome Bool) : Except Error Bool × Registers × Nat × Sink :=
  (o.result, o.machine.state.registers, o.machine.steps, o.sink)

structure Machine.StepsAlike (m₁ m₂ : Machine) (sink : Sink) : Prop where
  outcome : (m₁.step sink).map Outcome.seen = (m₂.step sink).map Outcome.seen
  payload : m₁.state.payload = m₂.state.payload
  stored : ∃ word : Option (Nat × Int),
    (∀ o, m₁.step sink = some o → o.machine.state.memory = m₁.state.memory.storing word) ∧
    ∀ o, m₂.step sink = some o → o.machine.state.memory = m₂.state.memory.storing word
  read : ∀ i, m₁.state.pending = .ok i → m₁.ip + i.size ≤ 4096 ∧ ∀ rest,
    Instruction.decode (bytesFrom m₁.state.memory.toArray m₁.ip.toNat i.size ++ rest) = .ok i

theorem State.memory_next (s : State) : s.next.memory = s.memory.storing s.stored? := by
  unfold next stored?
  cases s.pending with
  | error e => rfl
  | ok i => exact i.memory_effect (s.past i)

theorem State.decode_of_pending {s : State} (wf : s.WellFormed) {i : Instruction}
    (pending : s.pending = .ok i) (rest : List UInt8) :
    Instruction.decode (bytesFrom s.memory.toArray s.ip.toNat i.size ++ rest) = .ok i := by
  rcases pending_eq_ok_iff.mp pending with ⟨read, -, -⟩
  rcases Int.eq_ofNat_of_zero_le wf.ip_nonneg with ⟨a, pointer⟩
  rw [pointer] at read ⊢
  apply Instruction.decode_eq_ok_iff.mpr
  rw [(encode_of_instructionAt read).2]
  exact List.prefix_append _ _

variable {s₁ s₂ : State} {i : Instruction}

namespace State.Agrees

variable (agrees : s₁.Agrees s₂)

include agrees

theorem ip_eq : s₁.ip = s₂.ip := by
  rw [ip, ip, agrees.registers]

theorem bytesFrom_eq (op : Opcode) (code : s₁.memory.byteAt s₁.ip.toNat = op.code) :
    bytesFrom s₁.memory.toArray s₁.ip.toNat op.size =
      bytesFrom s₂.memory.toArray s₁.ip.toNat op.size := by
  apply List.map_congr_left
  intro k member
  have within := List.mem_range.mp member
  rw [Memory.getD_toArray, Memory.getD_toArray]
  by_cases inside : s₁.ip.toNat + k < 4096
  · exact agrees.bytes _ (.operand code within inside)
  · have past := Nat.not_lt.mp inside
    rw [Memory.byteAt_of_le _ past, Memory.byteAt_of_le _ past]

theorem instructionAt_eq_ok (read : instructionAt s₁.memory.toArray s₁.ip = .ok i) :
    instructionAt s₂.memory.toArray s₁.ip = .ok i := by
  have upper := lt_of_instructionAt read
  have same := agrees.bytesFrom_eq i.opcode
  rcases Int.eq_ofNat_of_zero_le agrees.wellFormed.ip_nonneg with ⟨a, pointer⟩
  rw [pointer] at read same upper ⊢
  rcases encode_of_instructionAt read with ⟨code, encoded⟩
  apply (instructionAt_eq_ok_iff_encode (by omega)).mpr
  rw [Memory.getD_toArray] at code
  exact encoded.trans (same code.symm)

theorem instructionAt_eq :
    instructionAt s₁.memory.toArray s₁.ip = instructionAt s₂.memory.toArray s₂.ip := by
  have lower := agrees.wellFormed.ip_nonneg
  rw [← agrees.ip_eq]
  by_cases past : 4096 ≤ s₁.ip
  · rw [instructionAt_past _ past, instructionAt_past _ past]
  · have upper : s₁.ip < 4096 := Int.not_le.mp past
    have here := agrees.bytes _ (.code upper)
    cases known : Opcode.ofCode? (s₁.memory.byteAt s₁.ip.toNat) with
    | none =>
      rw [RegisterMachine.instructionAt_eq _ lower upper,
        RegisterMachine.instructionAt_eq _ lower upper, ← here, known]
    | some op =>
      have code := (Opcode.code_of_ofCode? known).symm
      have read := instructionAt_of_code s₁.memory lower upper code
      rw [read, agrees.instructionAt_eq_ok read]

theorem pending_eq : s₁.pending = s₂.pending := by
  rw [pending, pending, agrees.instructionAt_eq, agrees.ip_eq]

theorem registers_past (i : Instruction) : (s₁.past i).registers = (s₂.past i).registers := by
  simp only [past, setIp, agrees.ip_eq, agrees.registers]

theorem operand_past (i : Instruction) (b : UInt8) :
    (s₁.past i).operand b = (s₂.past i).operand b :=
  operand_eq (agrees.registers_past i) b

theorem wordAt_eq {ri rj : UInt8} (pending : s₁.pending = .ok (.load ri rj)) {a : Span 4}
    (inside : checkSpan ((s₁.past (.load ri rj)).operand rj) 4 = .ok a) :
    (s₁.past (.load ri rj)).wordAt a = (s₂.past (.load ri rj)).wordAt a := by
  have address := checkSpan_ok inside
  have span : (s₁.past (.load ri rj)).operand rj + 4 ≤ 4096 := by
    rw [← address]
    exact a.property.2
  have byte (k : Nat) (within : k < 4) :
      s₁.memory.byteAt (a.val.toNat + k) = s₂.memory.byteAt (a.val.toNat + k) := by
    have used := agrees.bytes _ (.loaded pending span within)
    rwa [← address] at used
  rw [wordAt, wordAt, Memory.numberOfBytes_wordBytes, Memory.numberOfBytes_wordBytes]
  exact Memory.word_eq byte

theorem effect_alike (pending : s₁.pending = .ok i) :
    (i.effect (s₁.past i)).Alike (i.effect (s₂.past i)) := by
  have registers := agrees.registers_past i
  have operands := agrees.operand_past i
  cases i with
  | moveIf rd rs rc =>
    simp only [Instruction.effect, operands]
    split
    · exact ⟨registers, rfl⟩
    · exact ⟨registers_assign registers rd _, rfl⟩
  | store ri rj =>
    simp only [Instruction.effect, operands]
    split
    · exact ⟨registers, rfl⟩
    · exact ⟨registers, rfl⟩
  | load ri rj =>
    simp only [Instruction.effect, ← operands]
    split
    · rename_i a inside
      rw [agrees.wordAt_eq pending inside]
      exact ⟨registers_assign registers ri _, rfl⟩
    · exact ⟨registers, rfl⟩
  | loadImm ri imm => exact ⟨registers_assign registers ri _, rfl⟩
  | sub rd ra rb =>
    simp only [Instruction.effect, operands]
    exact ⟨registers_assign registers rd _, rfl⟩
  | out ri =>
    simp only [Instruction.effect, Instruction.payload, operands]
    exact ⟨registers, rfl⟩
  | exit => exact ⟨registers, rfl⟩
  | outNumber ri =>
    simp only [Instruction.effect, Instruction.payload, operands]
    exact ⟨registers, rfl⟩

theorem stored?_eq : s₁.stored? = s₂.stored? := by
  rw [stored?, stored?, ← agrees.pending_eq]
  cases s₁.pending with
  | error e => rfl
  | ok i =>
    cases i with
    | store ri rj => simp only [Instruction.stored?, agrees.operand_past]
    | _ => rfl

theorem payload_eq : s₁.payload = s₂.payload := by
  rw [payload, payload, ← agrees.pending_eq]
  cases s₁.pending with
  | error e => rfl
  | ok i =>
    cases i with
    | out ri => simp only [Instruction.payload, agrees.operand_past]
    | outNumber ri => simp only [Instruction.payload, agrees.operand_past]
    | _ => rfl

end State.Agrees

theorem Effect.Alike.start_seen {e₁ e₂ : Effect} (alike : e₁.Alike e₂) (sink : Sink) :
    (e₁.start sink).map Effect.seen = (e₂.start sink).map Effect.seen := by
  rcases e₁ with ⟨s₁, ending⟩
  rcases e₂ with ⟨s₂, ending₂⟩
  have registers : s₁.registers = s₂.registers := alike.registers
  cases alike.ending
  cases ending with
  | fails error => simp only [start, Option.map_some, seen, registers]
  | succeeds ends => simp only [start, Option.map_some, seen, registers]
  | delivers payload =>
    simp only [start, Option.map_map]
    congr 1
    funext answer
    simp only [Function.comp_apply, seen, registers]

namespace Machine

def stepsAfter (m : Machine) : Except Error Bool → Nat
  | .ok _ => m.steps + 1
  | .error _ => m.steps

theorem steps_logFailure (m : Machine) (ip : Int) (e : Error) :
    (m.logFailure ip e).steps = m.steps := by
  rcases m.logFailure_eq ip e with ⟨log, same⟩
  rw [same]

theorem steps_settle (m : Machine) (i : Instruction) (result : Except Error Bool) (s : State) :
    (m.settle i result s).steps = m.stepsAfter result := by
  cases result with
  | error e => exact steps_logFailure _ _ _
  | ok ends => rfl

theorem step_seen {m : Machine} (pending : m.state.pending = .ok i) (sink : Sink) :
    (m.step sink).map Outcome.seen =
      (((i.effect (m.state.past i)).start sink).map Effect.seen).map
        fun (result, registers, sink) => (result, registers, m.stepsAfter result, sink) := by
  rw [step_eq, pending]
  simp only [Option.map_map]
  congr 1
  funext ended
  simp only [Function.comp_apply, Outcome.seen, Effect.seen, state_settle, steps_settle]

theorem step_seen_error {m : Machine} {e : Error} (pending : m.state.pending = .error e)
    (sink : Sink) : (m.step sink).map Outcome.seen =
      some (.error e, m.state.registers, m.steps, sink) := by
  rw [step_eq, pending]
  simp only [Option.map_some, Outcome.seen, state_logFailure, steps_logFailure]

variable {m₁ m₂ : Machine}

/-- Two machines with the same registers and counts, whose memories have the same bytes where a step
reads, take that step alike. -/
theorem steps_alike (wf : m₁.state.WellFormed) (registers : m₁.state.registers = m₂.state.registers)
    (steps : m₁.steps = m₂.steps)
    (bytes : ∀ a, m₁.state.Uses a → m₁.state.memory.byteAt a = m₂.state.memory.byteAt a)
    (sink : Sink) : m₁.StepsAlike m₂ sink := by
  have agrees : m₁.state.Agrees m₂.state := ⟨wf, registers, bytes⟩
  constructor
  · cases pending : m₁.state.pending with
    | error e =>
      have pending₂ := agrees.pending_eq.symm.trans pending
      rw [step_seen_error pending, step_seen_error pending₂, registers, steps]
    | ok i =>
      have pending₂ := agrees.pending_eq.symm.trans pending
      have count : m₁.stepsAfter = m₂.stepsAfter := by
        funext result
        cases result <;> simp only [stepsAfter, steps]
      rw [step_seen pending, step_seen pending₂, (agrees.effect_alike pending).start_seen, count]
  · exact agrees.payload_eq
  · refine ⟨m₁.state.stored?, ?_, ?_⟩
    · intro o stepped
      rw [state_of_step stepped, State.memory_next]
    · intro o stepped
      rw [state_of_step stepped, State.memory_next, agrees.stored?_eq]
  · intro i pending
    rcases State.pending_eq_ok_iff.mp pending with ⟨-, -, fits⟩
    exact ⟨fits, State.decode_of_pending wf pending⟩

end Machine

/-- A machine that loads the word at the address in register 2, whatever follows. -/
def loader (rest : List UInt8) : State :=
  State.assign { memory := Memory.ofImage (3 :: 1 :: 2 :: rest).toArray } 2 8

theorem registers_loader (rest other : List UInt8) :
    (loader rest).registers = (loader other).registers := by
  apply State.registers_assign
  rfl

theorem byteAt_loader (rest : List UInt8) {a : Nat} (low : a < 4096) :
    (loader rest).memory.byteAt a = (3 :: 1 :: 2 :: rest).getD a 0 := by
  rw [loader, State.memory_assign, Memory.byteAt_ofImage _ low]
  simp

theorem pending_loader (rest : List UInt8) : (loader rest).pending = .ok (.load 1 2) :=
  State.pending_ofImage rest rfl rfl (by decide)

theorem uses_loader {rest : List UInt8} {a : Nat} (used : (loader rest).Uses a) :
    a < 3 ∨ 8 ≤ a ∧ a < 12 := by
  have ip : (loader rest).ip.toNat = 0 := rfl
  cases used with
  | code =>
    left
    rw [ip]
    decide
  | @operand op k code within =>
    have known : (loader rest).memory.byteAt 0 = Opcode.load.code := byteAt_loader rest (by decide)
    have same : op = .load := by
      rw [ip, known] at code
      have found := congrArg Opcode.ofCode? code
      rw [Opcode.ofCode?_code, Opcode.ofCode?_code] at found
      exact (Option.some.inj found).symm
    subst same
    left
    rw [ip, Nat.zero_add]
    exact within
  | @loaded ri rj k pending _ within =>
    rw [pending_loader] at pending
    cases pending
    have address : ((loader rest).past (.load 1 2)).operand 2 = 8 := rfl
    right
    rw [address]
    omega

theorem Machine.steps_alike_loader :
    let m₁ : Machine := { state := loader [7, 0, 0, 0, 0, 5, 6, 7, 8] }
    let m₂ : Machine := { state := loader [9, 1, 1, 1, 1, 5, 6, 7, 8, 1] }
    m₁.state.WellFormed ∧ m₁.state.memory ≠ m₂.state.memory ∧
      (∀ a, m₁.state.Uses a → m₁.state.memory.byteAt a = m₂.state.memory.byteAt a) ∧
      ∀ sink, m₁.StepsAlike m₂ sink := by
  intro m₁ m₂
  have wf : m₁.state.WellFormed := by decide
  have differ : m₁.state.memory ≠ m₂.state.memory := by
    intro same
    have third := congrArg (·.byteAt 3) same
    simp only [m₁, m₂, byteAt_loader _ (show 3 < 4096 by decide)] at third
    cases third
  have bytes : ∀ a, m₁.state.Uses a → m₁.state.memory.byteAt a = m₂.state.memory.byteAt a := by
    intro a used
    have place := uses_loader used
    simp only [m₁, m₂]
    rw [byteAt_loader _ (by omega), byteAt_loader _ (by omega)]
    have cases : a = 0 ∨ a = 1 ∨ a = 2 ∨ a = 8 ∨ a = 9 ∨ a = 10 ∨ a = 11 := by omega
    rcases cases with rfl | rfl | rfl | rfl | rfl | rfl | rfl
    all_goals rfl
  exact ⟨wf, differ, bytes, steps_alike wf (registers_loader _ _) rfl bytes⟩

end RegisterMachine
