import RegisterMachine.Proofs.Output.Delivery
import RegisterMachine.Proofs.Step.Equation

namespace RegisterMachine

inductive Instruction.Breaks (s : State) (sink : Sink) : Instruction → Error → Sink → Prop
  | store {ri rj : UInt8} (outside : 4092 < s.operand ri) :
    Breaks s sink (.store ri rj) (.fault (.spanOutside (s.operand ri) 4)) sink
  | load {ri rj : UInt8} (outside : 4092 < s.operand rj) :
    Breaks s sink (.load ri rj) (.fault (.spanOutside (s.operand rj) 4)) sink
  | out {ri : UInt8} {e : Error} {sink' : Sink}
    (failed : sink.deliver (payload (.out ri) s) = some (.error e, sink')) :
    Breaks s sink (.out ri) e sink'
  | outNumber {ri : UInt8} {e : Error} {sink' : Sink}
    (failed : sink.deliver (payload (.outNumber ri) s) = some (.error e, sink')) :
    Breaks s sink (.outNumber ri) e sink'

/-- What steps on any sinks and switches of tracing make of a machine, with no register set from
outside. -/
inductive Machine.Undisturbed (m : Machine) : Machine → Prop
  | refl : Undisturbed m m
  | step {m' : Machine} {sink : Sink} {o : Outcome Bool} (before : Undisturbed m m')
    (stepped : m'.step sink = some o) : Undisturbed m o.machine
  | tracing {m' : Machine} (before : Undisturbed m m') (on : Bool) :
    Undisturbed m { m' with tracing := on }

def Error.OfStep : Error → Prop
  | .fault f => f.kind = .unknownInstruction ∨ f.kind = .memoryAddress ∨ f.kind = .write
  | .refused _ => True
  | _ => False

theorem Error.FromSink.ofStep {e : Error} (fromSink : e.FromSink) : e.OfStep := by
  cases e with
  | fault f =>
    cases f with
    | writeRefused => exact .inr (.inr rfl)
    | writeStalled => exact .inr (.inr rfl)
    | _ => cases fromSink
  | refused r => trivial
  | _ => cases fromSink

theorem Instruction.Breaks.ofStep {i : Instruction} {s : State} {sink sink' : Sink} {e : Error}
    (breaks : i.Breaks s sink e sink') : e.OfStep := by
  cases breaks with
  | store => exact .inr (.inl rfl)
  | load => exact .inr (.inl rfl)
  | out failed => exact (Sink.fromSink_of_deliver failed).ofStep
  | outNumber failed => exact (Sink.fromSink_of_deliver failed).ofStep

theorem checkSpan_of_nonneg {a : Int} (lower : 0 ≤ a) :
    checkSpan a 4 =
      if h : 4092 < a then .error (.fault (.spanOutside a 4)) else .ok ⟨a, by omega⟩ := by
  by_cases high : 4092 < a
  · rw [dif_pos high, checkSpan_outside (.inr high)]
  · rw [dif_neg high, checkSpan_inside lower (Int.not_lt.mp high)]

theorem Effect.start_delivers_error {s : State} {payload : List UInt8} {sink : Sink} {e : Error}
    {c : Context} (failed : Effect.start ⟨s, .delivers payload⟩ sink = some (.error e, c)) :
    c.state = s ∧ sink.deliver payload = some (.error e, c.sink) := by
  obtain ⟨⟨result, sink'⟩, delivered, same⟩ := Option.map_eq_some_iff.mp failed
  cases result with
  | error e' =>
    cases same
    exact ⟨rfl, delivered⟩
  | ok _ => cases same

theorem Instruction.breaks_of_start {i : Instruction} {s : State} (wf : s.WellFormed)
    {sink : Sink} {e : Error} {c : Context}
    (failed : (i.effect s).start sink = some (.error e, c)) :
    c.state = s ∧ i.Breaks s sink e c.sink := by
  cases i with
  | moveIf rd rs rc => cases failed
  | store ri rj =>
    have lower := (wf.operand ri).1
    simp only [effect, checkSpan_of_nonneg lower] at failed
    by_cases outside : 4092 < s.operand ri
    · rw [dif_pos outside] at failed
      cases failed
      exact ⟨rfl, .store outside⟩
    · rw [dif_neg outside] at failed
      cases failed
  | load ri rj =>
    have lower := (wf.operand rj).1
    simp only [effect, checkSpan_of_nonneg lower] at failed
    by_cases outside : 4092 < s.operand rj
    · rw [dif_pos outside] at failed
      cases failed
      exact ⟨rfl, .load outside⟩
    · rw [dif_neg outside] at failed
      cases failed
  | loadImm ri imm => cases failed
  | sub rd ra rb => cases failed
  | out ri =>
    obtain ⟨same, failed⟩ := Effect.start_delivers_error failed
    exact ⟨same, .out failed⟩
  | exit => cases failed
  | outNumber ri =>
    obtain ⟨same, failed⟩ := Effect.start_delivers_error failed
    exact ⟨same, .outNumber failed⟩

namespace Machine

theorem failed_step_of_pending {m : Machine} {e : Error} (rejected : m.state.pending = .error e)
    (sink : Sink) : m.step sink = some ⟨.error e, m.logFailure m.ip e, sink⟩ := by
  rw [step_eq, rejected]

theorem Undisturbed.state_eq {m later : Machine} (path : Undisturbed m later) {e : Error}
    (rejected : m.state.pending = .error e) : later.state = m.state := by
  induction path with
  | refl => rfl
  | step before stepped ih =>
    rw [failed_step_of_pending (by rw [ih, rejected])] at stepped
    cases stepped
    rw [state_logFailure, ih]
  | tracing before on ih => exact ih

/-- What a step that fails leaves behind. Nothing is counted or traced, and no memory and no register
but the pointer is changed. If the checks rejected the step, nothing is changed at all and the sink
is not written to, so that every later step fails in the same way; otherwise the pointer has moved
past the instruction, which is a store or a load outside memory or an output that the sink did not
take. -/
structure Failure (m : Machine) (sink : Sink) (e : Error) (m' : Machine) (sink' : Sink) : Prop where
  steps : m'.steps = m.steps
  trace : m'.trace = m.trace
  memory : m'.state.memory = m.state.memory
  registers : ∀ i : Fin 16, i ≠ 0 → m'.state.registers.get i = m.state.registers.get i
  place :
    (∃ f, e = .fault f ∧ m.state.Rejects f ∧ m'.state = m.state ∧ sink' = sink ∧
      ∀ later, Undisturbed m' later → ∀ other, ∃ last,
        later.step other = some ⟨.error e, last, other⟩) ∨
    ∃ i, m.state.pending = .ok i ∧ i.Breaks (m.state.past i) sink e sink' ∧
      m'.state = m.state.past i ∧ m'.ip = m.ip + i.size
  kind : e.OfStep

theorem failed_step (m : Machine) (wf : m.state.WellFormed) (sink : Sink) {e : Error}
    {m' : Machine} {sink' : Sink} (failed : m.step sink = some ⟨.error e, m', sink'⟩) :
    Failure m sink e m' sink' := by
  rw [step_eq] at failed
  cases pending : m.state.pending with
  | error e' =>
    -- The checks come before every change.
    rw [pending] at failed
    cases failed
    obtain ⟨f, rfl, rejects⟩ := m.state.rejects_of_pending pending
    obtain ⟨log, logged⟩ := m.logFailure_eq m.ip (.fault f)
    rw [logged]
    refine ⟨rfl, rfl, rfl, fun _ _ => rfl, .inl ⟨f, rfl, rejects, rfl, rfl, ?_⟩, ?_⟩
    · intro later path other
      have same := path.state_eq pending
      exact ⟨_, failed_step_of_pending (by rw [same, pending]) other⟩
    · cases rejects <;> simp [Error.OfStep, Fault.kind]
  | ok i =>
    rw [pending] at failed
    obtain ⟨⟨result, c⟩, started, same⟩ := Option.map_eq_some_iff.mp failed
    cases same
    -- The pointer has moved before the instruction failed.
    obtain ⟨unchanged, breaks⟩ := i.breaks_of_start (wf.past i) started
    obtain ⟨log, logged⟩ := logFailure_eq { m with state := m.state.past i } m.ip e
    simp only [settle, unchanged]
    rw [logged]
    exact ⟨rfl, rfl, rfl, fun j other => State.get_past _ i other,
      .inr ⟨i, pending, breaks, rfl, State.ip_past wf pending⟩, breaks.ofStep⟩

theorem failed_step_blocked :
    let m : Machine := { state := printer }
    let blocked : Sink := { thereafter := .block }
    let m' : Machine := { state := printer.past (.out 1) }
    let blocked' : Sink := { blocked with offered := #[1] }
    m.state.WellFormed ∧
      m.step blocked = some ⟨.error (.fault (.writeStalled 1)), m', blocked'⟩ ∧
      Failure m blocked (.fault (.writeStalled 1)) m' blocked' := by
  intro m blocked m' blocked'
  have wf : m.state.WellFormed := by decide
  have stepped : m.step blocked = some ⟨.error (.fault (.writeStalled 1)), m', blocked'⟩ := by
    rw [step_printer]
    rfl
  exact ⟨wf, stepped, m.failed_step wf blocked stepped⟩

end Machine

end RegisterMachine
