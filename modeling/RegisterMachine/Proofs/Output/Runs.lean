import RegisterMachine.Proofs.Step.Writes

namespace RegisterMachine

/-- What a step adds to a sink: the payload if it succeeds, a proper prefix of the payload if the
sink fails, and otherwise nothing, without a write. -/
inductive Machine.Adds (m : Machine) (sink : Sink) : Outcome Bool → Prop
  | payload {ends : Bool} {m' : Machine} {sink' : Sink}
    (kept : sink'.kept.toList = sink.kept.toList ++ m.state.payload) :
    Adds m sink ⟨.ok ends, m', sink'⟩
  | part {e : Error} {m' : Machine} {sink' : Sink} {part : List UInt8}
    (fromSink : e.FromSink) (start : part <+: m.state.payload) (proper : part ≠ m.state.payload)
    (kept : sink'.kept.toList = sink.kept.toList ++ part) : Adds m sink ⟨.error e, m', sink'⟩
  | nothing {e : Error} {m' : Machine} (own : ¬ e.FromSink) : Adds m sink ⟨.error e, m', sink⟩

inductive Machine.Steps : Machine → Sink → List (List UInt8) → Machine → Sink → Prop
  | nil {m : Machine} {sink : Sink} : Steps m sink [] m sink
  | cons {m m' m'' : Machine} {sink sink' sink'' : Sink} {ends : Bool}
    {payloads : List (List UInt8)} (stepped : m.step sink = some ⟨.ok ends, m', sink'⟩)
    (rest : Steps m' sink' payloads m'' sink'') :
    Steps m sink (m.state.payload :: payloads) m'' sink''

/-- A run whose output is complete: steps that succeed and have all their payloads kept in order,
and a last step if the run fails. -/
inductive Machine.Written {α : Type} (m : Machine) (sink : Sink) : Outcome α → Prop
  | done {payloads : List (List UInt8)} {m' : Machine} {sink' : Sink} {value : α}
    (steps : m.Steps sink payloads m' sink')
    (kept : sink'.kept.toList = sink.kept.toList ++ payloads.flatten) :
    Written m sink ⟨.ok value, m', sink'⟩
  | failed {payloads : List (List UInt8)} {m' m'' : Machine} {sink' sink'' : Sink} {e : Error}
    (steps : m.Steps sink payloads m' sink')
    (kept : sink'.kept.toList = sink.kept.toList ++ payloads.flatten)
    (last : m'.step sink' = some ⟨.error e, m'', sink''⟩)
    (adds : m'.Adds sink' ⟨.error e, m'', sink''⟩) : Written m sink ⟨.error e, m'', sink''⟩

/-- Outcomes of one call on two sinks that agree in all but the sinks, to which they have added the
same bytes. -/
structure Outcome.Alike {α : Type} (sink₁ sink₂ : Sink) (o₁ o₂ : Outcome α) : Prop where
  result : o₁.result = o₂.result
  machine : o₁.machine = o₂.machine
  kept : ∃ bytes, o₁.sink.kept.toList = sink₁.kept.toList ++ bytes ∧
    o₂.sink.kept.toList = sink₂.kept.toList ++ bytes

namespace Machine

theorem sink_of_step {m : Machine} {sink : Sink} {o : Outcome Bool}
    (stepped : m.step sink = some o) (silent : ∀ i, m.state.pending = .ok i → ¬ i.IsOutput) :
    o.sink = sink := by
  rcases m.state.step_cases with ⟨i, pending, output, -⟩ | ⟨-, -, result, -, same⟩
  · exact absurd output (silent i pending)
  · obtain ⟨m', ends⟩ := same m rfl
    rw [ends] at stepped
    cases stepped
    rfl

theorem step_counts (m : Machine) {sink : Sink} (counts : sink.Always Act.Counts) :
    ∃ o, m.step sink = some o ∧ o.sink.Always Act.Counts ∧ m.Adds sink o := by
  rcases m.state.step_cases with ⟨i, -, -, delivers⟩ | ⟨-, empty, result, own, same⟩
  · obtain ⟨result, sink', part, rest, delivered, counts', split, kept, complete⟩ :=
      Sink.deliver_counts counts m.state.payload
    rw [delivers m rfl, delivered]
    refine ⟨_, rfl, counts', ?_⟩
    cases result with
    | ok done =>
      have nothing := complete.mp rfl
      subst nothing
      rw [List.append_nil] at split
      subst split
      exact .payload kept
    | error e =>
      have left : rest ≠ [] := by
        intro h
        cases complete.mpr h
      refine .part (Sink.fromSink_of_deliver delivered) ⟨rest, split⟩ ?_ kept
      rw [← split]
      intro same
      exact left (List.append_right_eq_self.mp same.symm)
  · obtain ⟨m', ends⟩ := same m rfl
    refine ⟨_, ends sink, counts, ?_⟩
    cases result with
    | ok ends => exact .payload (by rw [empty, List.append_nil])
    | error e => exact .nothing (own e rfl)

theorem Steps.counts {m m' : Machine} {sink sink' : Sink} {payloads : List (List UInt8)}
    (steps : m.Steps sink payloads m' sink') (counts : sink.Always Act.Counts) :
    sink'.Always Act.Counts ∧ sink'.kept.toList = sink.kept.toList ++ payloads.flatten := by
  induction steps with
  | nil => exact ⟨counts, by simp⟩
  | @cons m _ _ sink _ _ _ _ stepped _ ih =>
    obtain ⟨o, ended, counts', adds⟩ := m.step_counts counts
    rw [stepped] at ended
    cases ended
    obtain ⟨counts'', kept⟩ := ih counts'
    cases adds with
    | payload first =>
      refine ⟨counts'', ?_⟩
      rw [kept, first, List.flatten_cons, List.append_assoc]

theorem Written.cons {α : Type} {m m' : Machine} {sink sink' : Sink} {ends : Bool} {o : Outcome α}
    (stepped : m.step sink = some ⟨.ok ends, m', sink'⟩)
    (first : sink'.kept.toList = sink.kept.toList ++ m.state.payload)
    (written : m'.Written sink' o) : m.Written sink o := by
  cases written with
  | done steps kept =>
    apply Written.done (.cons stepped steps)
    rw [kept, first, List.flatten_cons, List.append_assoc]
  | failed steps kept last adds =>
    apply Written.failed (.cons stepped steps) _ last adds
    rw [kept, first, List.flatten_cons, List.append_assoc]

theorem runFor_succ {m : Machine} {sink : Sink} {o : Outcome Bool} (n : Nat)
    (stepped : m.step sink = some o) :
    m.runFor (n + 1) sink =
      match o.result with
      | .ok false => o.machine.runFor n o.sink
      | _ => some o := by
  obtain ⟨result, m', sink'⟩ := o
  rw [runFor, stepped]
  rcases result with e | _ | _ <;> rfl

theorem runFor_written (n : Nat) (m : Machine) {sink : Sink} (counts : sink.Always Act.Counts) :
    ∃ o, m.runFor n sink = some o ∧ m.Written sink o := by
  induction n generalizing m sink with
  | zero => exact ⟨_, rfl, .done .nil (by simp)⟩
  | succ n ih =>
    obtain ⟨⟨result, m', sink'⟩, stepped, counts', adds⟩ := m.step_counts counts
    rw [runFor_succ n stepped]
    cases result with
    | error e => exact ⟨_, rfl, .failed .nil (by simp) stepped adds⟩
    | ok ends =>
      cases adds with
      | payload first =>
        cases ends with
        | true => exact ⟨_, rfl, .cons stepped first (.done .nil (by simp))⟩
        | false =>
          obtain ⟨o, ran, written⟩ := ih m' counts'
          exact ⟨o, ran, .cons stepped first written⟩

theorem run_eq_some_iff {fuel : Nat} {m : Machine} {sink : Sink} {o : Outcome Unit} :
    m.run fuel sink = some o ↔
      (m.runFor fuel sink = some ⟨.ok true, o.machine, o.sink⟩ ∧ o.result = .ok ()) ∨
        ∃ e, m.runFor fuel sink = some ⟨.error e, o.machine, o.sink⟩ ∧ o.result = .error e := by
  obtain ⟨result, m', sink'⟩ := o
  constructor
  · intro ran
    rw [run] at ran
    rcases bounded : m.runFor fuel sink with _ | ⟨e | _ | _, m'', sink''⟩
    all_goals
      rw [bounded] at ran
      cases ran
    · exact .inr ⟨e, rfl, rfl⟩
    · exact .inl ⟨rfl, rfl⟩
  · rintro (⟨bounded, rfl⟩ | ⟨e, bounded, rfl⟩)
    · rw [run, bounded]
    · rw [run, bounded]

theorem run_written {fuel : Nat} {m : Machine} {sink : Sink} (counts : sink.Always Act.Counts)
    {o : Outcome Unit} (ran : m.run fuel sink = some o) : m.Written sink o := by
  obtain ⟨b, bounded, written⟩ := runFor_written fuel m counts
  obtain ⟨result, m', sink'⟩ := o
  rcases run_eq_some_iff.mp ran with ⟨ended, rfl⟩ | ⟨e, ended, rfl⟩
  · rw [bounded] at ended
    cases ended
    cases written with
    | done steps kept => exact .done steps kept
  · rw [bounded] at ended
    cases ended
    cases written with
    | failed steps kept last adds => exact .failed steps kept last adds

theorem step_accepts (m : Machine) :
    ∃ result m', ∀ sink : Sink, sink.Always Act.Accepts →
      ∃ sink', m.step sink = some ⟨result, m', sink'⟩ ∧ sink'.Always Act.Accepts ∧
        sink'.kept.toList = sink.kept.toList ++ m.state.payload := by
  rcases m.state.step_cases with ⟨i, -, -, delivers⟩ | ⟨-, empty, result, -, same⟩
  · refine ⟨.ok false, m.settle i (.ok false) (m.state.past i), ?_⟩
    intro sink accepts
    obtain ⟨sink', delivered, accepts', kept⟩ := Sink.deliver_accepts accepts m.state.payload
    refine ⟨sink', ?_, accepts', kept⟩
    rw [delivers m rfl, delivered]
    rfl
  · obtain ⟨m', ends⟩ := same m rfl
    refine ⟨result, m', ?_⟩
    intro sink accepts
    have kept : sink.kept.toList = sink.kept.toList ++ m.state.payload := by
      rw [empty, List.append_nil]
    exact ⟨sink, ends sink, accepts, kept⟩

/-- An accepting sink keeps what a step delivers, and a step that fails delivers nothing to it. -/
theorem sink_of_accepts {m : Machine} {sink : Sink} (accepts : sink.Always Act.Accepts)
    {o : Outcome Bool} (stepped : m.step sink = some o) :
    o.sink.Always Act.Accepts ∧ o.sink.kept.toList = sink.kept.toList ++ m.state.payload ∧
      ∀ e, o.result = .error e → o.sink = sink := by
  rcases m.state.step_cases with ⟨i, -, -, delivers⟩ | ⟨-, empty, result, -, same⟩
  · obtain ⟨sink', delivered, accepts', kept⟩ := Sink.deliver_accepts accepts m.state.payload
    rw [delivers m rfl, delivered] at stepped
    cases stepped
    refine ⟨accepts', kept, ?_⟩
    rintro e ⟨⟩
  · obtain ⟨m', ends⟩ := same m rfl
    rw [ends] at stepped
    cases stepped
    refine ⟨accepts, ?_, fun _ _ => rfl⟩
    rw [empty, List.append_nil]

theorem runFor_accepts (n : Nat) (m : Machine) :
    ∃ result m' bytes, ∀ sink : Sink, sink.Always Act.Accepts →
      ∃ sink', m.runFor n sink = some ⟨result, m', sink'⟩ ∧
        sink'.kept.toList = sink.kept.toList ++ bytes := by
  induction n generalizing m with
  | zero =>
    refine ⟨.ok false, m, [], ?_⟩
    intro sink _
    exact ⟨sink, rfl, by simp⟩
  | succ n ih =>
    obtain ⟨result, m', same⟩ := m.step_accepts
    -- Whether the run goes on after the first step is the same on all accepting sinks.
    by_cases goesOn : result = .ok false
    · obtain ⟨last, m'', bytes, later⟩ := ih m'
      refine ⟨last, m'', m.state.payload ++ bytes, ?_⟩
      intro sink accepts
      obtain ⟨sink', stepped, accepts', first⟩ := same sink accepts
      obtain ⟨sink'', ran, kept⟩ := later sink' accepts'
      refine ⟨sink'', ?_, by rw [kept, first, List.append_assoc]⟩
      simp only [runFor_succ n stepped, goesOn, ran]
    · refine ⟨result, m', m.state.payload, ?_⟩
      intro sink accepts
      obtain ⟨sink', stepped, -, first⟩ := same sink accepts
      refine ⟨sink', ?_, first⟩
      rw [runFor_succ n stepped]
      rcases result with e | _ | _
      · rfl
      · exact absurd rfl goesOn
      · rfl

theorem Steps.accepts {m m' : Machine} {sink₁ sink₁' : Sink} {payloads : List (List UInt8)}
    (steps : m.Steps sink₁ payloads m' sink₁') (accepts₁ : sink₁.Always Act.Accepts)
    {sink₂ : Sink} (accepts₂ : sink₂.Always Act.Accepts) :
    ∃ sink₂', m.Steps sink₂ payloads m' sink₂' ∧ sink₁'.Always Act.Accepts ∧
      sink₂'.Always Act.Accepts := by
  induction steps generalizing sink₂ with
  | nil => exact ⟨sink₂, .nil, accepts₁, accepts₂⟩
  | @cons m _ _ sink _ _ _ _ stepped _ ih =>
    obtain ⟨result, m', same⟩ := m.step_accepts
    obtain ⟨_, first, later₁, -⟩ := same sink accepts₁
    obtain ⟨_, second, later₂, -⟩ := same sink₂ accepts₂
    rw [stepped] at first
    cases first
    obtain ⟨sink₂', rest, both⟩ := ih later₁ later₂
    exact ⟨sink₂', .cons second rest, both⟩

/-- What is known of the output of the runs of a machine. On a counting sink it is complete, be a run
bounded or not or taken step by step; only outputs write; and on accepting sinks runs are alike. -/
structure OutputLaws (m : Machine) : Prop where
  bounded : ∀ sink : Sink, sink.Always Act.Counts →
    ∀ n, ∃ o, m.runFor n sink = some o ∧ m.Written sink o
  unbounded : ∀ sink : Sink, sink.Always Act.Counts →
    ∀ fuel o, m.run fuel sink = some o → m.Written sink o
  stepwise : ∀ sink : Sink, sink.Always Act.Counts →
    ∀ payloads m' sink', m.Steps sink payloads m' sink' →
      sink'.kept.toList = sink.kept.toList ++ payloads.flatten ∧
        ∃ o, m'.step sink' = some o ∧ m'.Adds sink' o
  silent : ∀ sink payloads m' sink', m.Steps sink payloads m' sink' →
    ∀ o, m'.step sink' = some o → (∀ i, m'.state.pending = .ok i → ¬ i.IsOutput) → o.sink = sink'
  boundedAlike : ∀ sink₁ sink₂ : Sink, sink₁.Always Act.Accepts → sink₂.Always Act.Accepts →
    ∀ n, ∃ o₁ o₂, m.runFor n sink₁ = some o₁ ∧ m.runFor n sink₂ = some o₂ ∧
      Outcome.Alike sink₁ sink₂ o₁ o₂
  unboundedAlike : ∀ sink₁ sink₂ : Sink, sink₁.Always Act.Accepts → sink₂.Always Act.Accepts →
    ∀ fuel o₁, m.run fuel sink₁ = some o₁ →
      ∃ o₂, m.run fuel sink₂ = some o₂ ∧ Outcome.Alike sink₁ sink₂ o₁ o₂
  stepwiseAlike : ∀ sink₁ sink₂ : Sink, sink₁.Always Act.Accepts → sink₂.Always Act.Accepts →
    ∀ payloads m' sink₁', m.Steps sink₁ payloads m' sink₁' →
      ∃ sink₂' o₁ o₂, m.Steps sink₂ payloads m' sink₂' ∧ m'.step sink₁' = some o₁ ∧
        m'.step sink₂' = some o₂ ∧ Outcome.Alike sink₁ sink₂ o₁ o₂

theorem output_laws (m : Machine) : m.OutputLaws where
  bounded := by
    intro sink counts n
    exact runFor_written n m counts
  unbounded := by
    intro sink counts fuel o ran
    exact run_written counts ran
  stepwise := by
    intro sink counts payloads m' sink' steps
    obtain ⟨counts', kept⟩ := steps.counts counts
    obtain ⟨o, ended, -, adds⟩ := m'.step_counts counts'
    exact ⟨kept, o, ended, adds⟩
  silent := by
    intro sink payloads m' sink' _ o stepped silent
    exact sink_of_step stepped silent
  boundedAlike := by
    intro sink₁ sink₂ accepts₁ accepts₂ n
    obtain ⟨result, m', bytes, same⟩ := m.runFor_accepts n
    obtain ⟨sink₁', first, kept₁⟩ := same sink₁ accepts₁
    obtain ⟨sink₂', second, kept₂⟩ := same sink₂ accepts₂
    exact ⟨_, _, first, second, rfl, rfl, bytes, kept₁, kept₂⟩
  unboundedAlike := by
    intro sink₁ sink₂ accepts₁ accepts₂ fuel o₁ ran
    obtain ⟨result, m', bytes, same⟩ := m.runFor_accepts fuel
    obtain ⟨sink₁', first, kept₁⟩ := same sink₁ accepts₁
    obtain ⟨sink₂', second, kept₂⟩ := same sink₂ accepts₂
    obtain ⟨result₁, _, _⟩ := o₁
    refine ⟨⟨result₁, m', sink₂'⟩, ?_⟩
    rw [run_eq_some_iff] at ran ⊢
    rw [first] at ran
    rw [second]
    rcases ran with ⟨ended, rfl⟩ | ⟨e, ended, rfl⟩
    · cases ended
      exact ⟨.inl ⟨rfl, rfl⟩, rfl, rfl, bytes, kept₁, kept₂⟩
    · cases ended
      exact ⟨.inr ⟨e, rfl, rfl⟩, rfl, rfl, bytes, kept₁, kept₂⟩
  stepwiseAlike := by
    intro sink₁ sink₂ accepts₁ accepts₂ payloads m' sink₁' steps₁
    obtain ⟨sink₂', steps₂, accepts₁', accepts₂'⟩ := steps₁.accepts accepts₁ accepts₂
    obtain ⟨-, before₁⟩ := steps₁.counts (accepts₁.mono fun _ => Act.Accepts.counts)
    obtain ⟨-, before₂⟩ := steps₂.counts (accepts₂.mono fun _ => Act.Accepts.counts)
    obtain ⟨result, m'', same⟩ := m'.step_accepts
    obtain ⟨_, first, -, kept₁⟩ := same sink₁' accepts₁'
    obtain ⟨_, second, -, kept₂⟩ := same sink₂' accepts₂'
    refine ⟨sink₂', _, _, steps₂, first, second, rfl, rfl, payloads.flatten ++ m'.state.payload, ?_⟩
    rw [kept₁, kept₂, before₁, before₂, List.append_assoc, List.append_assoc]
    exact ⟨rfl, rfl⟩

/-- A closed sink fails the output of the printer and has kept nothing of it. -/
theorem output_laws_printer :
    let m : Machine := { state := printer }
    let sink : Sink := { thereafter := .refuse ⟨.closedStream, "closed"⟩ }
    sink.Always Act.Counts ∧ m.state.payload = [0] ∧
      ∃ e m' sink', m.runFor 1 sink = some ⟨.error e, m', sink'⟩ ∧ e.FromSink ∧
        m.Written sink (⟨.error e, m', sink'⟩ : Outcome Bool) ∧ sink'.kept.toList = [] := by
  intro m sink
  have counts : sink.Always Act.Counts := ⟨List.forall_mem_nil _, trivial⟩
  have payload : m.state.payload = [0] := by
    rw [State.payload_of_pending pending_printer]
    decide
  obtain ⟨o, ran, written⟩ := m.output_laws.bounded sink counts 1
  have stepped := step_at_printer (m := m) rfl sink
  have failed : sink.deliver [0] =
      some (.error (.fault (.writeRefused 1 ⟨.closedStream, "closed"⟩)),
        { sink with offered := #[1] }) := rfl
  rw [failed] at stepped
  rw [runFor_succ 0 stepped] at ran
  cases ran
  exact ⟨counts, payload, _, _, _, runFor_succ 0 stepped, Sink.fromSink_of_deliver failed, written,
    rfl⟩

end Machine

end RegisterMachine
