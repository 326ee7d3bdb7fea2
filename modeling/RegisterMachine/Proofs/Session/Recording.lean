import Mathlib.Data.List.Forall2
import RegisterMachine.Proofs.Session.Bookkeeping

namespace RegisterMachine

namespace Event

structure Succession (between : List Event) (r r' : StepRecord) : Prop where
  increasing : r.step < r'.step
  consecutive : (∀ e ∈ between, e.traced = false) → (∀ on, .setTracing on ∈ between → on = true) →
    r'.step = r.step + 1
  adjoining : (∀ e ∈ between, e.quiet = true) → r'.before = r.after

end Event

/-- What counter and trace of a machine tell of the events since its creation, with the switch and
the limit of the trace that it was created with. -/
structure Machine.Recorded (tracing : Bool) (limit? : Option Int) (events : List Event)
    (m : Machine) : Prop where
  counted : m.steps = events.countP Event.succeeds
  called : ∀ before machine sink outcome after,
    events = before ++ .step machine sink outcome :: after →
      machine.steps = before.countP Event.succeeds ∧
        machine.tracing = Event.tracingAfter tracing before
  kept : ∃ all, List.Forall₂ Event.Records (events.filter Event.traced) all ∧
    m.trace.records <:+ all ∧
    m.trace.records.length =
      match limit? with
      | none => all.length
      | some limit => min limit.toNat all.length
  ordered : m.trace.records.Pairwise fun r r' => r.step < r'.step
  succession : ∀ before e between e' after r r', events = before ++ e :: (between ++ e' :: after) →
    e.Records r → e'.Records r' → Event.Succession between r r'

structure Machine.Ordered (m : Machine) : Prop where
  increasing : m.trace.records.Pairwise fun r r' => r.step < r'.step
  past : ∀ r ∈ m.trace.records, r.step < m.steps

variable {m m' : Machine} {sink sink' : Sink} {events : List Event}

namespace Event

theorem Happens.ordered {e : Event} (happens : e.Happens m sink m' sink')
    (ordered : m.Ordered) : m'.Ordered := by
  have steps := happens.books.steps
  rcases happens.books.trace with ⟨-, same⟩ | ⟨traced, i, ends, -, -, pushed⟩
  · constructor
    · rw [same]
      exact ordered.increasing
    · intro r member
      rw [same] at member
      have earlier := ordered.past r member
      omega
  · rw [if_pos (succeeds_of_traced traced)] at steps
    constructor
    · rw [pushed, Trace.records_push]
      refine List.Pairwise.sublist (newest_suffix _ _).sublist ?_
      rw [List.pairwise_append]
      refine ⟨ordered.increasing, List.pairwise_singleton _ _, ?_⟩
      intro r₁ member r₂ last
      rw [List.mem_singleton.mp last]
      exact ordered.past r₁ member
    · intro r₁ member
      rw [pushed] at member
      rcases Trace.mem_records_push member with old | rfl
      · have earlier := ordered.past r₁ old
        omega
      · rw [steps]
        exact Nat.lt_succ_self _

theorem tracingAfter_cons (on : Bool) (e : Event) (events : List Event) :
    tracingAfter on (e :: events) = tracingAfter (tracingAfter on [e]) events := by
  cases e <;> rfl

theorem tracingAfter_on (stays : ∀ on, .setTracing on ∈ events → on = true) :
    tracingAfter true events = true := by
  induction events with
  | nil => rfl
  | cons e events ih =>
    have rest := ih fun on member => stays on (List.mem_cons_of_mem _ member)
    cases e with
    | setTracing on =>
      obtain rfl := stays on List.mem_cons_self
      exact rest
    | _ => exact rest

end Event

namespace Course

theorem steps_eq (course : Course m sink events m' sink') :
    m'.steps = m.steps + events.countP Event.succeeds := by
  induction course with
  | nil => rfl
  | cons happens _ ih =>
    rw [ih, happens.books.steps, List.countP_cons]
    omega

theorem tracing_eq (course : Course m sink events m' sink') :
    m'.tracing = Event.tracingAfter m.tracing events := by
  induction course with
  | nil => rfl
  | cons happens _ ih => rw [ih, happens.books.tracing, ← Event.tracingAfter_cons]

theorem records_eq (course : Course m sink events m' sink') :
    ∃ all, List.Forall₂ Event.Records (events.filter Event.traced) all ∧
      m'.trace.records = newest m.trace.limit (m.trace.records ++ all) := by
  induction course with
  | @nil m sink =>
    refine ⟨[], .nil, ?_⟩
    rw [List.append_nil, m.trace.newest_records]
  | @cons m m' _ _ _ _ e events happens _ ih =>
    obtain ⟨all, records, trace⟩ := ih
    rcases happens.books.trace with ⟨untraced, same⟩ | ⟨traced, i, ends, -, record, pushed⟩
    · refine ⟨all, ?_, ?_⟩
      · rwa [List.filter_cons_of_neg (by simp [untraced])]
      · rw [trace, same]
    · refine ⟨m.record i ends :: all, ?_, ?_⟩
      · rw [List.filter_cons_of_pos traced]
        exact .cons record records
      · -- Records that the first event drops are not among the newest at the end.
        rw [trace, pushed, Trace.limit_push, Trace.records_push, newest_append, List.append_assoc]
        rfl

theorem countP_succeeds (course : Course m sink events m' sink') (on : m.tracing = true)
    (stays : ∀ on, .setTracing on ∈ events → on = true)
    (unrecorded : ∀ e ∈ events, e.traced = false) : events.countP Event.succeeds = 0 := by
  apply List.countP_eq_zero.mpr
  intro e member succeeds
  obtain ⟨before, after, rfl⟩ := List.append_of_mem member
  cases e with
  | step machine sink outcome =>
    obtain ⟨result, _, _⟩ := outcome
    cases result with
    | error error => cases succeeds
    | ok ends =>
      -- A step that succeeds is traced, as no event before it has turned tracing off.
      obtain ⟨begun, -, -⟩ := course.split_step
      have traced : machine.tracing = true := by
        rw [begun.tracing_eq, on]
        exact Event.tracingAfter_on fun on earlier => stays on (List.mem_append_left _ earlier)
      have untraced : machine.tracing = false := unrecorded _ member
      rw [traced] at untraced
      cases untraced
  | _ => cases succeeds

theorem state_eq (course : Course m sink events m' sink')
    (quiet : ∀ e ∈ events, e.quiet = true) : m'.state = m.state := by
  apply course.preserves (P := fun later _ => later.state = m.state)
  · intro e member before _ later _ happens same
    rw [happens.state_eq (quiet e member), same]
  · rfl

theorem succession {e e' : Event} {between after : List Event} {r r' : StepRecord}
    (course : Course m sink (e :: (between ++ e' :: after)) m' sink')
    (record : e.Records r) (record' : e'.Records r') : Event.Succession between r r' := by
  cases record with
  | step tracing _ =>
    cases record' with
    | step _ _ =>
      obtain _ | ⟨⟨ended⟩, rest⟩ := course
      have books := (Event.Happens.step ended).books
      obtain ⟨middle, -, -⟩ := rest.split_step
      have first : _ = _ + 1 := books.steps
      have on : _ = true := books.tracing.trans tracing
      have counted := middle.steps_eq
      simp only at first on counted
      constructor
      · simp only
        omega
      · intro unrecorded stays
        rw [middle.countP_succeeds on stays unrecorded] at counted
        simp only
        omega
      · intro quiet
        exact congrArg State.registers (middle.state_eq quiet)

end Course

theorem History.recorded {image : Image} {tracing logging : Bool} {limit? : Option Int}
    {m₀ : Machine} {sink₀ : Sink} (created : Machine.create image tracing limit? = .ok m₀)
    (history : History { m₀ with logging } sink₀ events m sink) :
    m.Recorded tracing limit? events := by
  obtain ⟨bytes, rfl⟩ := Machine.eq_of_create created
  have course := history.course
  have ordered : m.Ordered :=
    course.preserves (fun _ _ _ _ _ _ happens => happens.ordered) ⟨by simp, by simp⟩
  refine ⟨?_, ?_, ?_, ordered.increasing, ?_⟩
  · rw [course.steps_eq, Nat.zero_add]
  · rintro before machine sink outcome after rfl
    obtain ⟨begun, -, -⟩ := course.split_step
    exact ⟨by rw [begun.steps_eq, Nat.zero_add], begun.tracing_eq⟩
  · obtain ⟨all, records, trace⟩ := course.records_eq
    simp only [Trace.records_empty, List.nil_append] at trace
    refine ⟨all, records, ?_, ?_⟩
    · rw [trace]
      exact newest_suffix _ _
    · rw [trace, length_newest]
      cases limit? <;> rfl
  · rintro before e between e' after r r' rfl record record'
    obtain ⟨_, _, -, rest⟩ := course.split
    exact rest.succession record record'

theorem History.recorded_printer :
    let m₀ : Machine := { state := printer, tracing := true, trace := { limit := some 1 } }
    Machine.create (.bytes #[6, 1]) true (some 1) = .ok m₀ ∧
      ∃ events m sink, History { m₀ with logging := true } {} events m sink ∧ events.length = 5 ∧
        m.Recorded true (some 1) events ∧ m.steps = 2 := by
  intro m₀
  have created : Machine.create (.bytes #[6, 1]) true (some 1) = .ok m₀ := rfl
  obtain ⟨⟨_, _, _⟩, _, ⟨_, _, _⟩, ⟨_, _, _⟩, rfl, rfl, rfl, history⟩ :=
    exists_of_printer { m₀ with logging := true } rfl
  have recorded := History.recorded created history
  exact ⟨created, _, _, _, history, rfl, recorded, recorded.counted⟩

end RegisterMachine
