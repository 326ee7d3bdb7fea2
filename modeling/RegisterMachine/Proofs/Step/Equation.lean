import RegisterMachine.Machine.Basic
import RegisterMachine.Proofs.Registry.Dispatch
import RegisterMachine.Proofs.Step.Effect

namespace RegisterMachine

/-- What a step that executes an instruction makes of the machine besides registers and memory. -/
def Machine.settle (m : Machine) (i : Instruction) (result : Except Error Bool) (s : State) :
    Machine :=
  match result with
  | .error e => { m with state := s }.logFailure m.ip e
  | .ok ends => { m with state := s }.recordStep m.ip i m.state.registers ends

namespace Machine

theorem logFailure_eq (m : Machine) (ip : Int) (e : Error) :
    ∃ log, m.logFailure ip e = { m with log } := by
  unfold logFailure
  split
  · split
    · exact ⟨_, rfl⟩
    · exact ⟨_, rfl⟩
  · exact ⟨_, rfl⟩

theorem state_logFailure (m : Machine) (ip : Int) (e : Error) :
    (m.logFailure ip e).state = m.state := by
  obtain ⟨log, same⟩ := m.logFailure_eq ip e
  rw [same]

theorem state_settle (m : Machine) (i : Instruction) (result : Except Error Bool) (s : State) :
    (m.settle i result s).state = s := by
  cases result with
  | error e => exact state_logFailure _ _ e
  | ok ends => rfl

end Machine

theorem Registry.start_execute (i : Instruction) (s : State) (sink : Sink) :
    (Registry.standard.execute i.toOperation).start ⟨s, sink⟩ =
      match i.toOperation.advance s.ip with
      | .error e => some (.error e, ⟨s, sink⟩)
      | .ok _ => (i.effect (s.past i)).start sink := by
  have found : Registry.standard.find? i.toOperation.key = some i.opcode.handler :=
    Registry.find?_standard i.opcode
  simp only [start_eq_dispatch, dispatch, found]
  cases moved : i.toOperation.advance s.ip with
  | error e => rfl
  | ok next =>
    obtain ⟨inRange, -, rfl⟩ := Instruction.advance_eq_ok_iff.mp moved
    exact i.start_handler inRange (s.past i) sink

def State.next (s : State) : State :=
  match s.pending with
  | .error _ => s
  | .ok i => (i.effect (s.past i)).state

theorem Instruction.wellFormed_effect (i : Instruction) {s : State} (wf : s.WellFormed) :
    (i.effect s).state.WellFormed := by
  cases i with
  | moveIf rd rs rc =>
    obtain ⟨lower, upper⟩ := wf.operand rs
    simp only [effect]
    split
    · exact wf
    · exact wf.assign rd lower upper
  | store ri rj =>
    simp only [effect]
    split
    · exact wf
    · exact wf
  | load ri rj =>
    simp only [effect]
    split
    · rw [State.wordAt, Memory.numberOfBytes_wordBytes]
      exact wf.assign ri (Memory.word_nonneg _ _) (Memory.word_lt _ _)
    · exact wf
  | loadImm ri imm => exact wf.assign ri (toWord_nonneg _) (toWord_lt _)
  | sub rd ra rb => exact wf.assign rd (toWord_nonneg _) (toWord_lt _)
  | out ri => exact wf
  | exit => exact wf
  | outNumber ri => exact wf

theorem State.WellFormed.next {s : State} (wf : s.WellFormed) : s.next.WellFormed := by
  unfold State.next
  split
  · exact wf
  · exact Instruction.wellFormed_effect _ (wf.past _)

namespace Machine

/-- A step either stops at the checks, with nothing changed, or has the effect of the pending
instruction on the state past it. -/
theorem step_eq (m : Machine) (sink : Sink) :
    m.step sink =
      match m.state.pending with
      | .error e => some ⟨.error e, m.logFailure m.ip e, sink⟩
      | .ok i =>
        ((i.effect (m.state.past i)).start sink).map fun (result, c) =>
          ⟨result, m.settle i result c.state, c.sink⟩ := by
  have sameIp : m.ip = m.state.ip := rfl
  simp only [step, State.pending, sameIp]
  cases instructionAt m.state.memory.toArray m.state.ip with
  | error e => rfl
  | ok i =>
    simp only [Registry.start_execute]
    cases i.toOperation.advance m.state.ip with
    | error e => rfl
    | ok next =>
      simp only [Except.map]
      rcases (i.effect (m.state.past i)).start sink with _ | ⟨_ | _, _⟩ <;> rfl

theorem step_succeeds {m : Machine} {i : Instruction} {s s' : State} {ends : Bool}
    (start : m.state = s) (pending : s.pending = .ok i)
    (succeeds : i.effect (s.past i) = ⟨s', .succeeds ends⟩) (sink : Sink) :
    m.step sink = some ⟨.ok ends, m.settle i (.ok ends) s', sink⟩ := by
  rw [step_eq, start, pending]
  simp only [succeeds]
  rfl

theorem state_of_step {m : Machine} {sink : Sink} {o : Outcome Bool}
    (stepped : m.step sink = some o) : o.machine.state = m.state.next := by
  rw [step_eq] at stepped
  unfold State.next
  cases pending : m.state.pending with
  | error e =>
    rw [pending] at stepped
    cases stepped
    exact state_logFailure _ _ e
  | ok i =>
    rw [pending] at stepped
    obtain ⟨⟨result, c⟩, started, rfl⟩ := Option.map_eq_some_iff.mp stepped
    rw [state_settle]
    exact Effect.state_of_start started

theorem step_at_printer {m : Machine} (start : m.state = printer) (sink : Sink) :
    m.step sink =
      (sink.deliver [0]).map fun (result, sink) =>
        let result := result.map fun _ => false
        ⟨result, m.settle (.out 1) result (printer.past (.out 1)), sink⟩ := by
  have payload : (Instruction.out 1).payload (printer.past (.out 1)) = [0] := by decide
  simp only [step_eq, start, pending_printer, Instruction.effect, payload, Effect.start,
    Option.map_map]
  rfl

theorem step_printer (sink : Sink) :
    step { state := printer } sink =
      (sink.deliver [0]).map fun (result, sink) =>
        let result := result.map fun _ => false
        ⟨result, settle { state := printer } (.out 1) result (printer.past (.out 1)), sink⟩ :=
  step_at_printer rfl sink

end Machine

end RegisterMachine
