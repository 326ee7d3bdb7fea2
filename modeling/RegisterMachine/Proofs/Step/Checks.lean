import RegisterMachine.Registry
import RegisterMachine.Proofs.State.Registers
import RegisterMachine.Proofs.Step.Fetch

namespace RegisterMachine

theorem bind_eq_ok_iff {ε α β : Type} {x : Except ε α} {f : α → Except ε β} {b : β} :
    x >>= f = .ok b ↔ ∃ a, x = .ok a ∧ f a = .ok b := by
  cases x with
  | error e => simp [bind, Except.bind]
  | ok a => simp [bind, Except.bind]

theorem bind_eq_error_iff {ε α β : Type} {x : Except ε α} {f : α → Except ε β} {e : ε} :
    x >>= f = .error e ↔ x = .error e ∨ ∃ a, x = .ok a ∧ f a = .error e := by
  cases x with
  | error e' => simp [bind, Except.bind]
  | ok a => simp [bind, Except.bind]

def Instruction.InRange (i : Instruction) : Prop := ∀ r ∈ i.registers, r.toNat < 16

instance (i : Instruction) : Decidable i.InRange :=
  List.decidableBAll (fun r : UInt8 => r.toNat < 16) i.registers

namespace State

/-- The instruction that a step executes, once it has been read and has passed its checks. -/
def pending (s : State) : Except Error Instruction :=
  match instructionAt s.memory.toArray s.ip with
  | .error e => .error e
  | .ok i => (i.toOperation.advance s.ip).map fun _ => i

def past (s : State) (i : Instruction) : State := s.setIp (s.ip + i.size)

end State

theorem checkOperands_eq {operands : Operands} {names : List String} {bytes : List UInt8}
    (named : names.map operands.get = bytes.map fun b => .ok (b.toNat : Int)) :
    checkOperands operands names =
      match bytes.find? fun b => 16 ≤ b.toNat with
      | some b => .error (.fault (.invalidRegister .memoryAddress b.toNat))
      | none => .ok () := by
  induction names generalizing bytes with
  | nil =>
    cases bytes with
    | nil => rfl
    | cons b bytes => cases named
  | cons name names ih =>
    cases bytes with
    | nil => cases named
    | cons b bytes =>
      simp only [List.map_cons, List.cons.injEq] at named
      simp only [checkOperands, named.1, bind, Except.bind]
      by_cases bound : b.toNat < 16
      · have upper : (b.toNat : Int) < 16 := by omega
        have none : ¬ 16 ≤ b.toNat := by omega
        simp [checkRegister, upper, ih named.2, none]
      · have upper : ¬ (b.toNat : Int) < 16 := by omega
        have some : 16 ≤ b.toNat := by omega
        simp [checkRegister, upper, isWritable_byte, some]

theorem Instruction.advance_eq (i : Instruction) (ip : Int) :
    i.toOperation.advance ip =
      match i.registers.find? fun r => 16 ≤ r.toNat with
      | some r => .error (.fault (.invalidRegister .memoryAddress r.toNat))
      | none =>
        if ip + i.size ≤ 4096 then .ok (ip + i.size)
        else .error (.fault (.advancePastEnd i.opcode.mnemonic ip)) := by
  simp only [Operation.advance, toOperation, checkOperands_eq i.get_registerNames]
  cases i.registers.find? fun r => 16 ≤ r.toNat <;> rfl

theorem Instruction.advance_eq_ok_iff {i : Instruction} {ip next : Int} :
    i.toOperation.advance ip = .ok next ↔ i.InRange ∧ ip + i.size ≤ 4096 ∧ next = ip + i.size := by
  rw [advance_eq]
  cases found : i.registers.find? fun r => 16 ≤ r.toNat with
  | some r =>
    have outside : ¬ i.InRange := by
      intro inRange
      have bound := inRange r (List.mem_of_find?_eq_some found)
      have := List.find?_some found
      simp only [decide_eq_true_eq] at this
      omega
    simp [outside]
  | none =>
    have inRange : i.InRange := by
      intro r member
      simpa using List.find?_eq_none.mp found r member
    by_cases fits : ip + i.size ≤ 4096
    · simp [inRange, fits, eq_comm]
    · simp [fits]

theorem State.pending_eq_ok_iff {s : State} {i : Instruction} :
    s.pending = .ok i ↔
      instructionAt s.memory.toArray s.ip = .ok i ∧ i.InRange ∧ s.ip + i.size ≤ 4096 := by
  unfold pending
  cases instructionAt s.memory.toArray s.ip with
  | error e => simp
  | ok j =>
    cases moved : j.toOperation.advance s.ip with
    | error e =>
      simp only [moved, Except.map, Except.ok.injEq, reduceCtorEq, false_iff, not_and]
      rintro rfl inRange fits
      have := Instruction.advance_eq_ok_iff.mpr ⟨inRange, fits, rfl⟩
      rw [moved] at this
      cases this
    | ok next =>
      have := Instruction.advance_eq_ok_iff.mp moved
      simp only [moved, Except.map, Except.ok.injEq]
      constructor
      · rintro rfl
        exact ⟨rfl, this.1, this.2.1⟩
      · exact fun h => h.1

theorem State.pending_ofImage {s : State} {i : Instruction} (rest : List UInt8) (start : s.ip = 0)
    (program : s.memory = Memory.ofImage (i.encode ++ rest).toArray) (inRange : i.InRange) :
    s.pending = .ok i := by
  have short := i.size_le_four
  have held : i.encode = bytesFrom s.memory.toArray 0 i.size := by
    apply List.ext_getElem
    · simp [bytesFrom, i.length_encode]
    · intro k within _
      have low : k < 4096 := by
        rw [i.length_encode] at within
        omega
      simp only [bytesFrom, List.getElem_map, List.getElem_range, Nat.zero_add,
        Memory.getD_toArray, program, Memory.byteAt_ofImage _ low]
      simp [List.getElem?_append_left within, List.getElem?_eq_getElem within]
  rw [pending_eq_ok_iff, start]
  exact ⟨(instructionAt_eq_ok_iff_encode (by decide)).mpr held, inRange, by omega⟩

theorem State.pending_exit {s : State} {a : Nat} (ip : s.ip = a) (low : a < 4096)
    (code : s.memory.byteAt a = Opcode.exit.code) : s.pending = .ok .exit := by
  rw [pending_eq_ok_iff, ip]
  have size : Instruction.exit.size = 1 := rfl
  refine ⟨?_, by decide, by omega⟩
  exact instructionAt_of_code s.memory (Int.natCast_nonneg a) (Int.ofNat_lt.mpr low) code

/-- A program that writes register 1 as a character. -/
def printer : State := { memory := Memory.ofImage #[6, 1] }

theorem pending_printer : printer.pending = .ok (.out 1) :=
  State.pending_ofImage [] rfl rfl (by decide)

theorem State.WellFormed.past {s : State} (wf : s.WellFormed) (i : Instruction) :
    (s.past i).WellFormed := wf.setIp _

theorem State.ip_past {s : State} (wf : s.WellFormed) {i : Instruction}
    (pending : s.pending = .ok i) : (s.past i).ip = s.ip + i.size := by
  have lower := wf.ip_nonneg
  obtain ⟨-, -, fits⟩ := pending_eq_ok_iff.mp pending
  change (s.past i).registers.get 0 = _
  rw [past, setIp_eq, get_setRegister, if_pos rfl]
  exact toWord_of_lt (by omega) (by omega)

theorem pending_past_printer :
    (printer.past (.out 1)).pending = .error (.fault (.unknownOpcode 0)) := by
  have ip : (printer.past (.out 1)).ip = 2 := rfl
  have code : (printer.past (.out 1)).memory.byteAt 2 = 0 := Memory.byteAt_ofImage _ (by decide)
  have unknown : instructionAt (printer.past (.out 1)).memory.toArray 2 =
      .error (.fault (.unknownOpcode 0)) := by
    rw [instructionAt_eq _ (by decide) (by decide), show (2 : Int).toNat = 2 from rfl, code]
    rfl
  rw [State.pending, ip, unknown]

theorem State.get_past (s : State) (i : Instruction) {j : Fin 16} (other : j ≠ 0) :
    (s.past i).registers.get j = s.registers.get j := by
  rw [past, setIp_eq, get_setRegister, if_neg other]

inductive State.Rejects (s : State) : Fault → Prop
  | pastEnd (past : 4096 ≤ s.ip) : Rejects s (.pastEnd s.ip)
  | unknownOpcode {code : UInt8} (here : s.ip < 4096) (unknown : Opcode.ofCode? code = none) :
    Rejects s (.unknownOpcode code)
  | invalidRegister {i : Instruction} {r : UInt8}
    (read : instructionAt s.memory.toArray s.ip = .ok i) (member : r ∈ i.registers)
    (outside : 16 ≤ r.toNat) : Rejects s (.invalidRegister .memoryAddress r.toNat)
  | advancePastEnd {i : Instruction}
    (read : instructionAt s.memory.toArray s.ip = .ok i) (beyond : 4096 < s.ip + i.size) :
    Rejects s (.advancePastEnd i.opcode.mnemonic s.ip)

theorem State.rejects_of_pending {s : State} {e : Error} (failed : s.pending = .error e) :
    ∃ f, e = .fault f ∧ s.Rejects f := by
  unfold pending at failed
  cases read : instructionAt s.memory.toArray s.ip with
  | error e' =>
    rw [read] at failed
    cases failed
    rcases instructionAt_error read with ⟨past, rfl⟩ | ⟨code, here, unknown, rfl⟩
    · exact ⟨_, rfl, .pastEnd past⟩
    · exact ⟨_, rfl, .unknownOpcode here unknown⟩
  | ok i =>
    simp only [read, Instruction.advance_eq] at failed
    cases found : i.registers.find? fun r => 16 ≤ r.toNat with
    | some r =>
      have outside : 16 ≤ r.toNat := by simpa using List.find?_some found
      rw [found] at failed
      cases failed
      exact ⟨_, rfl, .invalidRegister read (List.mem_of_find?_eq_some found) outside⟩
    | none =>
      by_cases fits : s.ip + i.size ≤ 4096
      · simp only [found, fits, ↓reduceIte, Except.map, reduceCtorEq] at failed
      · simp only [found, fits, ↓reduceIte, Except.map] at failed
        cases failed
        exact ⟨_, rfl, .advancePastEnd read (by omega)⟩

end RegisterMachine
