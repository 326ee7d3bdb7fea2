import RegisterMachine.Proofs.Step.Equation

namespace RegisterMachine

def Machine.record (m : Machine) (i : Instruction) (ends : Bool) : StepRecord where
  step := m.steps
  ip := m.ip
  instruction := i
  before := m.state.registers
  after := m.state.next.registers
  ends

inductive Machine.Books (m : Machine) : Outcome Bool → Prop
  | failed {e : Error} {log : Array LogEntry} {sink : Sink} :
    Books m ⟨.error e, { m with state := m.state.next, log }, sink⟩
  | executed {i : Instruction} {ends : Bool} {log : Array LogEntry} {sink : Sink}
    (pending : m.state.pending = .ok i) :
    Books m ⟨.ok ends,
      { m with
        state := m.state.next
        steps := m.steps + 1
        trace := if m.tracing then m.trace.push (m.record i ends) else m.trace
        log },
      sink⟩

namespace Machine

theorem books_of_step {m : Machine} {sink : Sink} {o : Outcome Bool}
    (stepped : m.step sink = some o) : m.Books o := by
  have state := state_of_step stepped
  rw [step_eq] at stepped
  cases pending : m.state.pending with
  | error e =>
    rw [pending] at stepped
    cases stepped
    obtain ⟨log, same⟩ := m.logFailure_eq m.ip e
    simp only [same] at state ⊢
    have books : m.Books ⟨.error e, { m with state := m.state.next, log }, sink⟩ := .failed
    rwa [← state] at books
  | ok i =>
    rw [pending] at stepped
    obtain ⟨⟨result, c⟩, -, rfl⟩ := Option.map_eq_some_iff.mp stepped
    simp only [state_settle] at state ⊢
    rw [state]
    cases result with
    | error e =>
      obtain ⟨log, same⟩ := logFailure_eq { m with state := m.state.next } m.ip e
      simp only [settle, same]
      exact .failed
    | ok ends => exact .executed pending

end Machine

end RegisterMachine
