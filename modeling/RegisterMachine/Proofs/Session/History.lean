import RegisterMachine.Proofs.Run.Bounded

namespace RegisterMachine

inductive Event
  /-- A step is called on a machine and a sink, and ends. -/
  | step (machine : Machine) (sink : Sink) (outcome : Outcome Bool)
  | setRegister (index value : Int)
  | setTracing (on : Bool)
  | exchange (sink : Sink)

inductive Event.Happens (m : Machine) (sink : Sink) : Event → Machine → Sink → Prop
  | step {o : Outcome Bool} (ended : m.step sink = some o) :
    Happens m sink (.step m sink o) o.machine o.sink
  | setRegister {index value : Int} {m' : Machine} (set : m.setRegister index value = .ok m') :
    Happens m sink (.setRegister index value) m' sink
  | refused {index value : Int} {e : Error} (refused : m.setRegister index value = .error e) :
    Happens m sink (.setRegister index value) m sink
  | setTracing (on : Bool) : Happens m sink (.setTracing on) { m with tracing := on } sink
  | exchange (other : Sink) : Happens m sink (.exchange other) m other

def Machine.stepCalls : Nat → Machine → Sink → List Event
  | 0, _, _ => []
  | n + 1, m, sink =>
    match m.step sink with
    | none => []
    | some o =>
      .step m sink o ::
        match o.result with
        | .ok false => stepCalls n o.machine o.sink
        | _ => []

/-- The events that lead from a machine and a sink to others. A call that fails is an event like any
other, and a call that never ends leads nowhere. -/
inductive History (m₀ : Machine) (sink₀ : Sink) : List Event → Machine → Sink → Prop
  | start : History m₀ sink₀ [] m₀ sink₀
  | event {events : List Event} {m m' : Machine} {sink sink' : Sink} {e : Event}
    (before : History m₀ sink₀ events m sink) (happens : e.Happens m sink m' sink') :
    History m₀ sink₀ (events ++ [e]) m' sink'
  | run {events : List Event} {m : Machine} {sink : Sink} {fuel : Nat} {o : Outcome Unit}
    (before : History m₀ sink₀ events m sink) (ended : m.run fuel sink = some o) :
    History m₀ sink₀ (events ++ m.stepCalls fuel sink) o.machine o.sink
  | runBounded {events : List Event} {m : Machine} {sink : Sink} {bound : Int} {o : Outcome Bool}
    (before : History m₀ sink₀ events m sink) (ended : m.runBounded bound sink = some o) :
    History m₀ sink₀ (events ++ m.stepCalls bound.toNat sink) o.machine o.sink

inductive Course : Machine → Sink → List Event → Machine → Sink → Prop
  | nil {m : Machine} {sink : Sink} : Course m sink [] m sink
  | cons {m m' m'' : Machine} {sink sink' sink'' : Sink} {e : Event} {events : List Event}
    (happens : e.Happens m sink m' sink') (rest : Course m' sink' events m'' sink'') :
    Course m sink (e :: events) m'' sink''

variable {m m' m'' : Machine} {sink sink' sink'' : Sink}

namespace Course

theorem append {before after : List Event} (first : Course m sink before m' sink')
    (second : Course m' sink' after m'' sink'') : Course m sink (before ++ after) m'' sink'' := by
  induction first with
  | nil => exact second
  | cons happens _ ih => exact .cons happens (ih second)

theorem split {before after : List Event} (all : Course m sink (before ++ after) m'' sink'') :
    ∃ m' sink', Course m sink before m' sink' ∧ Course m' sink' after m'' sink'' := by
  induction before generalizing m sink with
  | nil => exact ⟨m, sink, .nil, all⟩
  | cons e before ih =>
    cases all with
    | cons happens rest =>
      obtain ⟨m', sink', first, second⟩ := ih rest
      exact ⟨m', sink', .cons happens first, second⟩

theorem split_step {before after : List Event} {o : Outcome Bool}
    (all : Course m sink (before ++ .step m' sink' o :: after) m'' sink'') :
    Course m sink before m' sink' ∧ m'.step sink' = some o ∧
      Course o.machine o.sink after m'' sink'' := by
  obtain ⟨_, _, first, second⟩ := all.split
  cases second with
  | cons happens rest =>
    cases happens with
    | step ended => exact ⟨first, ended, rest⟩

theorem preserves {P : Machine → Sink → Prop} {events : List Event}
    (course : Course m sink events m' sink')
    (keeps : ∀ e ∈ events, ∀ m sink m' sink', e.Happens m sink m' sink' → P m sink → P m' sink')
    (holds : P m sink) : P m' sink' := by
  induction course with
  | nil => exact holds
  | cons happens _ ih =>
    rw [List.forall_mem_cons] at keeps
    exact ih keeps.2 (keeps.1 _ _ _ _ happens holds)

theorem of_runFor {n : Nat} {o : Outcome Bool} (ran : m.runFor n sink = some o) :
    Course m sink (m.stepCalls n sink) o.machine o.sink := by
  induction n generalizing m sink with
  | zero =>
    cases ran
    exact .nil
  | succ n ih =>
    rw [Machine.stepCalls]
    cases stepped : m.step sink with
    | none =>
      rw [Machine.runFor, stepped] at ran
      cases ran
    | some first =>
      rw [Machine.runFor_succ n stepped] at ran
      obtain ⟨result, m', sink'⟩ := first
      rcases result with e | _ | _
      · cases ran
        exact .cons (.step stepped) .nil
      · exact .cons (.step stepped) (ih ran)
      · cases ran
        exact .cons (.step stepped) .nil

end Course

theorem History.course {events : List Event} (history : History m sink events m' sink') :
    Course m sink events m' sink' := by
  induction history with
  | start => exact .nil
  | event _ happens ih => exact ih.append (.cons happens .nil)
  | run _ ended ih =>
    obtain ⟨o, ran, -, rfl⟩ := Machine.run_eq_some_iff_runFor.mp ended
    exact ih.append (.of_runFor ran)
  | runBounded _ ended ih => exact ih.append (.of_runFor ended)

namespace Machine

theorem eq_of_create {image : Image} {tracing : Bool} {limit? : Option Int}
    (created : create image tracing limit? = .ok m) :
    ∃ bytes, m =
      { state := { memory := Memory.ofImage bytes }, tracing
        trace := { limit := limit?.map Int.toNat } } := by
  obtain ⟨bytes, -, created⟩ := bind_eq_ok_iff.mp created
  obtain ⟨state, loaded, created⟩ := bind_eq_ok_iff.mp created
  have same : state = { memory := Memory.ofImage bytes } := by
    rw [State.ofImage] at loaded
    split at loaded
    · exact (Except.ok.inj loaded).symm
    · cases loaded
  refine ⟨bytes, ?_⟩
  rw [← same]
  cases limit? with
  | none => exact (Except.ok.inj created).symm
  | some limit =>
    simp only at created
    split at created
    · cases created
    · split at created
      · cases created
      · exact (Except.ok.inj created).symm

theorem setRegister_eq (m : Machine) (i : Fin 16) (value : Int) :
    m.setRegister i.val value = .ok { m with state := m.state.setRegister i (toWord value) } := by
  have inside : 0 ≤ (i.val : Int) ∧ (i.val : Int) < 16 := by omega
  simp only [setRegister, checkRegister, inside, and_self, ↓reduceDIte, Int.toNat_natCast]
  rfl

theorem setRegister_refused {index : Int} (m : Machine) (outside : ¬ (0 ≤ index ∧ index < 16))
    (value : Int) : ∃ e, m.setRegister index value = .error e := by
  rw [setRegister, checkRegister, dif_neg outside]
  exact ⟨_, rfl⟩

theorem eq_of_setRegister {index value : Int} (set : m.setRegister index value = .ok m') :
    ∃ i : Fin 16, index = (i.val : Int) ∧
      m' = { m with state := m.state.setRegister i (toWord value) } := by
  by_cases inside : 0 ≤ index ∧ index < 16
  · obtain ⟨n, rfl⟩ := Int.eq_ofNat_of_zero_le inside.1
    refine ⟨⟨n, by omega⟩, rfl, ?_⟩
    have taken := m.setRegister_eq ⟨n, by omega⟩ value
    rw [set, Except.ok.injEq] at taken
    exact taken
  · obtain ⟨e, refused⟩ := m.setRegister_refused inside value
    rw [refused] at set
    cases set

theorem step_of_printer (start : m.state = printer) (accepts : sink.Always Act.Accepts) :
    ∃ o, m.step sink = some o ∧ o.result = .ok false ∧ o.machine.state = printer.past (.out 1) ∧
      o.sink.Always Act.Accepts := by
  obtain ⟨sink', delivered, accepts', -⟩ := Sink.deliver_accepts accepts [0]
  rw [step_at_printer start, delivered]
  exact ⟨_, rfl, rfl, m.state_settle _ _ _, accepts'⟩

end Machine

/-- The printer is stepped, set back to its start, and stepped until it fails; a last call is
refused. -/
theorem History.exists_of_printer (m : Machine) (start : m.state = printer) :
    ∃ o₁ m₂ o₂ o₃, o₁.result = .ok false ∧ o₂.result = .ok false ∧
      o₃.result = .error (.fault (.unknownOpcode 0)) ∧
      History m {}
        [.step m {} o₁, .setRegister 0 0, .step m₂ o₁.sink o₂, .step o₂.machine o₂.sink o₃,
          .setRegister 16 0] o₃.machine o₃.sink := by
  have accepts : ({} : Sink).Always Act.Accepts := ⟨List.forall_mem_nil _, trivial⟩
  obtain ⟨o₁, first, taken₁, state₁, accepts₁⟩ := Machine.step_of_printer start accepts
  have set := o₁.machine.setRegister_eq 0 0
  rw [state₁] at set
  have again : (printer.past (.out 1)).setRegister 0 (toWord 0) = printer := rfl
  obtain ⟨o₂, second, taken₂, state₂, -⟩ :=
    Machine.step_of_printer (m := { o₁.machine with state := _ }) again accepts₁
  have third := Machine.step_eq o₂.machine o₂.sink
  rw [state₂, pending_past_printer] at third
  have outside : ¬ ((0 : Int) ≤ 16 ∧ (16 : Int) < 16) := by decide
  obtain ⟨e, refused⟩ := Machine.setRegister_refused
    (o₂.machine.logFailure o₂.machine.ip (.fault (.unknownOpcode 0))) outside 0
  have history : History m {} [.step m {} o₁] o₁.machine o₁.sink := .event .start (.step first)
  have again := (history.event (.setRegister set)).event (.step second)
  exact ⟨o₁, _, o₂, _, taken₁, taken₂, rfl, (again.event (.step third)).event (.refused refused)⟩

end RegisterMachine
