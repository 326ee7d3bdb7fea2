import RegisterMachine.Proofs.Session.History

namespace RegisterMachine

namespace Event

def succeeds : Event → Bool
  | step _ _ ⟨.ok _, _, _⟩ => true
  | _ => false

def traced : Event → Bool
  | step m _ ⟨.ok _, _, _⟩ => m.tracing
  | _ => false

def quiet : Event → Bool
  | setTracing _ => true
  | exchange _ => true
  | _ => false

/-- The record of a step. All but the registers after it are read off the machine before it. -/
inductive Records : Event → StepRecord → Prop
  | step {m m' : Machine} {sink sink' : Sink} {i : Instruction} {ends : Bool}
    (tracing : m.tracing = true) (decoded : instructionAt m.state.memory.toArray m.ip = .ok i) :
    Records (.step m sink ⟨.ok ends, m', sink'⟩)
      { step := m.steps, ip := m.ip, instruction := i, before := m.state.registers
        after := m'.state.registers, ends }

def tracingAfter (on : Bool) : List Event → Bool
  | [] => on
  | setTracing on' :: events => tracingAfter on' events
  | _ :: events => tracingAfter on events

variable {e : Event} {m m' : Machine} {sink sink' : Sink}

theorem succeeds_of_traced (traced : e.traced = true) : e.succeeds = true := by
  cases e with
  | step machine sink outcome =>
    obtain ⟨result, _, _⟩ := outcome
    cases result with
    | error error => cases traced
    | ok ends => rfl
  | _ => cases traced

structure Books (e : Event) (m m' : Machine) : Prop where
  wellFormed : m.state.WellFormed → m'.state.WellFormed
  steps : m'.steps = m.steps + if e.succeeds then 1 else 0
  tracing : m'.tracing = tracingAfter m.tracing [e]
  trace : e.traced = false ∧ m'.trace = m.trace ∨
    e.traced = true ∧ ∃ i ends, m.state.pending = .ok i ∧ e.Records (m.record i ends) ∧
      m'.trace = m.trace.push (m.record i ends)

theorem Happens.books (happens : e.Happens m sink m' sink') : e.Books m m' := by
  cases happens with
  | step ended =>
    cases Machine.books_of_step ended with
    | failed => exact ⟨fun wf => wf.next, rfl, rfl, .inl ⟨rfl, rfl⟩⟩
    | @executed i ends log sink' pending =>
      refine ⟨fun wf => wf.next, rfl, rfl, ?_⟩
      cases tracing : m.tracing with
      | false => exact .inl ⟨tracing, rfl⟩
      | true =>
        have decoded := (State.pending_eq_ok_iff.mp pending).1
        exact .inr ⟨tracing, i, ends, pending, .step tracing decoded, rfl⟩
  | @setRegister index value m' set =>
    obtain ⟨i, -, rfl⟩ := Machine.eq_of_setRegister set
    refine ⟨?_, rfl, rfl, .inl ⟨rfl, rfl⟩⟩
    intro wf
    exact wf.setRegister i (toWord_nonneg value) (toWord_lt value)
  | refused => exact ⟨id, rfl, rfl, .inl ⟨rfl, rfl⟩⟩
  | setTracing => exact ⟨id, rfl, rfl, .inl ⟨rfl, rfl⟩⟩
  | exchange => exact ⟨id, rfl, rfl, .inl ⟨rfl, rfl⟩⟩

theorem Happens.state_eq (happens : e.Happens m sink m' sink')
    (quiet : e.quiet = true) : m'.state = m.state := by
  cases happens with
  | setTracing => rfl
  | exchange => rfl
  | _ => cases quiet

end Event

end RegisterMachine
