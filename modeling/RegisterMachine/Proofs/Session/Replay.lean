import RegisterMachine.Proofs.Output.Encoding
import RegisterMachine.Proofs.Session.Recording
import RegisterMachine.Proofs.Step.Failure

namespace RegisterMachine

namespace StepRecord

/-- The registers that the instruction of a record has worked on, with the pointer past it. -/
def operands (r : StepRecord) : State :=
  State.assign { registers := r.before } 0 (r.ip + r.instruction.size)

def replay (memory : Memory) (r : StepRecord) : Memory :=
  match r.instruction with
  | .store ri rj => memory.withWord (r.operands.operand ri).toNat (r.operands.operand rj)
  | _ => memory

def output (r : StepRecord) : List UInt8 :=
  match r.instruction with
  | .out ri => characterBytes (r.operands.operand ri % 256).toNat
  | .outNumber ri => decimalBytes (toSigned (r.operands.operand ri))
  | _ => []

end StepRecord

variable {m m' : Machine} {sink sink' : Sink} {events : List Event}

namespace Machine

theorem operand_record (wf : m.state.WellFormed) {i : Instruction}
    (pending : m.state.pending = .ok i) (ends : Bool) (b : UInt8) :
    (m.record i ends).operands.operand b = (m.state.past i).operand b := by
  -- The pointer past an instruction is 4096 at most, and does not wrap.
  have lower := wf.ip_nonneg
  obtain ⟨-, -, fits⟩ := State.pending_eq_ok_iff.mp pending
  have pointer : toWord (m.state.ip + i.size) = m.state.ip + i.size :=
    toWord_of_lt (by omega) (by omega)
  apply State.operand_eq
  simp only [State.past, State.setIp, pointer]
  rfl

theorem output_record (wf : m.state.WellFormed) {i : Instruction}
    (pending : m.state.pending = .ok i) (ends : Bool) :
    (m.record i ends).output = m.state.payload := by
  have operand := operand_record wf pending ends
  rw [State.payload_of_pending pending]
  cases i with
  | out ri =>
    rw [Instruction.payload, ← operand]
    rfl
  | outNumber ri =>
    rw [Instruction.payload, ← operand]
    rfl
  | _ => rfl

theorem replay_record (wf : m.state.WellFormed) {i : Instruction}
    (pending : m.state.pending = .ok i) {ends : Bool}
    (succeeded : m.step sink = some ⟨.ok ends, m', sink'⟩) :
    m'.state.memory = (m.record i ends).replay m.state.memory := by
  have operand := operand_record wf pending ends
  rw [step_eq, pending] at succeeded
  obtain ⟨⟨result, c⟩, started, same⟩ := Option.map_eq_some_iff.mp succeeded
  cases same
  rw [state_settle, Instruction.memory_of_start started]
  cases i with
  | store ri rj =>
    simp only [← operand]
    rfl
  | _ => rfl

theorem memory_of_failed (wf : m.state.WellFormed) {e : Error}
    (failed : m.step sink = some ⟨.error e, m', sink'⟩) : m'.state.memory = m.state.memory := by
  rw [step_eq] at failed
  cases pending : m.state.pending with
  | error e' =>
    rw [pending] at failed
    cases failed
    rw [state_logFailure]
  | ok i =>
    rw [pending] at failed
    obtain ⟨⟨result, c⟩, started, same⟩ := Option.map_eq_some_iff.mp failed
    cases same
    obtain ⟨unchanged, -⟩ := i.breaks_of_start (wf.past i) started
    rw [state_settle, unchanged]
    rfl

structure Logged (memory : Memory) (bytes : List UInt8) (m : Machine) (sink : Sink) : Prop where
  wellFormed : m.state.WellFormed
  tracing : m.tracing = true
  unlimited : m.trace.limit = none
  accepts : sink.Always Act.Accepts
  memory : m.trace.records.foldl StepRecord.replay memory = m.state.memory
  output : sink.kept.toList = bytes ++ m.trace.records.flatMap StepRecord.output

variable {memory : Memory} {bytes : List UInt8}

theorem Logged.step (logged : m.Logged memory bytes sink) {o : Outcome Bool}
    (stepped : m.step sink = some o) : o.machine.Logged memory bytes o.sink := by
  obtain ⟨accepts, kept, silent⟩ := sink_of_accepts logged.accepts stepped
  cases books_of_step stepped with
  | failed =>
    refine ⟨logged.wellFormed.next, logged.tracing, logged.unlimited, accepts, ?_, ?_⟩
    · rw [memory_of_failed logged.wellFormed stepped]
      exact logged.memory
    · rw [silent _ rfl]
      exact logged.output
  | @executed i ends log sink' pending =>
    have written := replay_record logged.wellFormed pending stepped
    have records : (m.trace.push (m.record i ends)).records =
        m.trace.records ++ [m.record i ends] := by
      rw [Trace.records_push, logged.unlimited]
      rfl
    simp only [logged.tracing, ↓reduceIte] at written ⊢
    refine ⟨logged.wellFormed.next, rfl, ?_, accepts, ?_, ?_⟩
    · exact (m.trace.limit_push _).trans logged.unlimited
    · -- The new record comes last, and is replayed on the memory that the others have made.
      simp only [records, List.foldl_append, logged.memory, List.foldl_cons, List.foldl_nil]
      exact written.symm
    · simp only [records, List.flatMap_append, List.flatMap_singleton,
        output_record logged.wellFormed pending]
      rw [logged.output, List.append_assoc] at kept
      exact kept

theorem logged_of_create {image : Image} (logging : Bool) (accepts : sink.Always Act.Accepts)
    (created : create image true none = .ok m) :
    { m with logging }.Logged m.state.memory sink.kept.toList sink := by
  obtain ⟨bytes, rfl⟩ := eq_of_create created
  refine ⟨State.wellFormed_reset _, rfl, rfl, accepts, ?_, ?_⟩
  · rw [Option.map_none, Trace.records_empty]
    rfl
  · rw [Option.map_none, Trace.records_empty, List.flatMap_nil, List.append_nil]

/-- The records of a machine tell what the events since its start have made of memory and output. -/
structure Replays (m₀ : Machine) (sink₀ : Sink) (events : List Event) (m : Machine)
    (sink : Sink) : Prop where
  memory : m.trace.records.foldl StepRecord.replay m₀.state.memory = m.state.memory
  output : sink.kept.toList = sink₀.kept.toList ++ m.trace.records.flatMap StepRecord.output
  complete : ∀ before sinkBefore outcome, .step before sinkBefore outcome ∈ events →
    (∃ r ∈ m.trace.records, (Event.step before sinkBefore outcome).Records r) ∨
      outcome.machine.state.memory = before.state.memory ∧ outcome.sink = sinkBefore

end Machine

section

variable {memory : Memory} {bytes : List UInt8}

theorem Event.Happens.logged {e : Event} (happens : e.Happens m sink m' sink')
    (call : e.quiet = false) (logged : m.Logged memory bytes sink) :
    m'.Logged memory bytes sink' := by
  have words := happens.books.wellFormed logged.wellFormed
  cases happens with
  | step ended => exact logged.step ended
  | setRegister set =>
    obtain ⟨i, -, rfl⟩ := Machine.eq_of_setRegister set
    exact { logged with wellFormed := words }
  | refused => exact logged
  | setTracing => cases call
  | exchange => cases call

namespace Course

theorem logged (course : Course m sink events m' sink') (calls : ∀ e ∈ events, e.quiet = false)
    (logged : m.Logged memory bytes sink) : m'.Logged memory bytes sink' :=
  course.preserves (fun e member _ _ _ _ happens => happens.logged (calls e member)) logged

/-- A step of a logged course has its record, or it has touched neither memory nor sink. -/
theorem recorded_or_silent (course : Course m sink events m' sink')
    (calls : ∀ e ∈ events, e.quiet = false) (start : m.Logged memory bytes sink) {before : Machine}
    {sinkBefore : Sink} {outcome : Outcome Bool}
    (member : .step before sinkBefore outcome ∈ events) :
    (∃ r ∈ m'.trace.records, (Event.step before sinkBefore outcome).Records r) ∨
      outcome.machine.state.memory = before.state.memory ∧ outcome.sink = sinkBefore := by
  obtain ⟨earlier, later, rfl⟩ := List.append_of_mem member
  obtain ⟨begun, ended, rest⟩ := course.split_step
  have logged := begun.logged (fun e member => calls e (List.mem_append_left _ member)) start
  obtain ⟨result, after, sinkAfter⟩ := outcome
  cases result with
  | error e =>
    obtain ⟨-, -, silent⟩ := Machine.sink_of_accepts logged.accepts ended
    exact .inr ⟨Machine.memory_of_failed logged.wellFormed ended, silent e rfl⟩
  | ok ends =>
    have books := (Event.Happens.step ended).books
    rcases books.trace with ⟨untraced, -⟩ | ⟨-, i, ends, -, record, pushed⟩
    · have traced : before.tracing = false := untraced
      rw [logged.tracing] at traced
      cases traced
    · -- Without a limit, what comes later drops no record.
      obtain ⟨_, -, trace⟩ := rest.records_eq
      have unlimited := (logged.step ended).unlimited
      simp only at pushed trace unlimited
      refine .inl ⟨before.record i ends, ?_, record⟩
      rw [trace, unlimited, pushed, Trace.records_push, logged.unlimited]
      simp [newest]

end Course

end

/-- With tracing on from the start and no limit, the trace is a complete log of what a session does
to memory and puts out through an accepting sink. -/
theorem History.replays {image : Image} {logging : Bool} {m₀ : Machine} {sink₀ : Sink}
    (created : Machine.create image true none = .ok m₀) (accepts : sink₀.Always Act.Accepts)
    (history : History { m₀ with logging } sink₀ events m sink)
    (calls : ∀ e ∈ events, e.quiet = false) : Machine.Replays m₀ sink₀ events m sink := by
  have start := Machine.logged_of_create logging accepts created
  have logged := history.course.logged calls start
  refine ⟨logged.memory, logged.output, ?_⟩
  intro before sinkBefore outcome member
  exact history.course.recorded_or_silent calls start member

theorem History.replays_printer :
    let m₀ : Machine := { state := printer, tracing := true, trace := { limit := none } }
    Machine.create (.bytes #[6, 1]) true none = .ok m₀ ∧ ({} : Sink).Always Act.Accepts ∧
      ∃ events m sink, History { m₀ with logging := true } {} events m sink ∧ events.length = 5 ∧
        (∀ e ∈ events, e.quiet = false) ∧ Machine.Replays m₀ {} events m sink := by
  intro m₀
  have created : Machine.create (.bytes #[6, 1]) true none = .ok m₀ := rfl
  have accepts : ({} : Sink).Always Act.Accepts := ⟨List.forall_mem_nil _, trivial⟩
  obtain ⟨_, _, _, _, -, -, -, history⟩ := exists_of_printer { m₀ with logging := true } rfl
  refine ⟨created, accepts, _, _, _, history, rfl, ?_, History.replays created accepts history ?_⟩
  · simp [Event.quiet]
  · simp [Event.quiet]

end RegisterMachine
