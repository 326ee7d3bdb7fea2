import RegisterMachine.Proofs.Session.Calls
import RegisterMachine.Proofs.Step.Writes

namespace RegisterMachine

/-- Outcomes of the same calls, made from a state, that leave the same registers and memory after
each call, with the same results except for output instructions. -/
inductive Lockstep :
    State → List Call → List (Outcome (Option Bool)) → List (Outcome (Option Bool)) → Prop
  | nil {s : State} : Lockstep s [] [] []
  | cons {s : State} {c : Call} {calls : List Call} {o₁ o₂ : Outcome (Option Bool)}
    {rest₁ rest₂ : List (Outcome (Option Bool))}
    (state : o₁.machine.state = o₂.machine.state)
    (result : o₁.result = o₂.result ∨ c = .step ∧ ∃ i, s.pending = .ok i ∧ i.IsOutput)
    (rest : Lockstep o₁.machine.state calls rest₁ rest₂) :
    Lockstep s (c :: calls) (o₁ :: rest₁) (o₂ :: rest₂)

variable {m₁ m₂ : Machine} {sink₁ sink₂ : Sink}

namespace Machine

theorem result_of_step (same : m₁.state = m₂.state) {o₁ o₂ : Outcome Bool}
    (first : m₁.step sink₁ = some o₁) (second : m₂.step sink₂ = some o₂) :
    o₁.result = o₂.result ∨ ∃ i, m₁.state.pending = .ok i ∧ i.IsOutput := by
  rcases m₁.state.step_cases with ⟨i, pending, output, -⟩ | ⟨-, -, result, -, ends⟩
  · exact .inr ⟨i, pending, output⟩
  · obtain ⟨_, ends₁⟩ := ends m₁ rfl
    obtain ⟨_, ends₂⟩ := ends m₂ same.symm
    rw [ends₁] at first
    rw [ends₂] at second
    cases first
    cases second
    exact .inl rfl

end Machine

theorem Call.Ends.agree {c : Call} (single : ¬ c.IsRun) (same : m₁.state = m₂.state)
    {o₁ o₂ : Outcome (Option Bool)} (first : c.Ends m₁ sink₁ o₁) (second : c.Ends m₂ sink₂ o₂) :
    o₁.machine.state = o₂.machine.state ∧
      (o₁.result = o₂.result ∨ c = .step ∧ ∃ i, m₁.state.pending = .ok i ∧ i.IsOutput) := by
  cases first with
  | step ended₁ =>
    obtain ⟨ended₂⟩ := second
    have state₁ := Machine.state_of_step ended₁
    have state₂ := Machine.state_of_step ended₂
    refine ⟨by rw [state₁, state₂, same], ?_⟩
    rcases Machine.result_of_step same ended₁ ended₂ with result | output
    · exact .inl (congrArg (Except.map some) result)
    · exact .inr ⟨rfl, output⟩
  | run => exact absurd trivial single
  | runFor => exact absurd trivial single
  | setRegister index value =>
    cases second
    simp only [Machine.setRegister, same]
    cases checkRegister index .registerIndex with
    | ok i => exact ⟨rfl, .inl rfl⟩
    | error e => exact ⟨same, .inl rfl⟩
  | setTracing =>
    cases second
    exact ⟨same, .inl rfl⟩

/-- No sink influences registers or memory: two sessions of single calls, on machines that agree on
them and with any two sinks, stay in lockstep. -/
theorem Session.lockstep {calls : List Call} {outcomes₁ outcomes₂ : List (Outcome (Option Bool))}
    (single : ∀ c ∈ calls, ¬ c.IsRun) (same : m₁.state = m₂.state)
    (first : Session m₁ sink₁ calls outcomes₁) (second : Session m₂ sink₂ calls outcomes₂) :
    Lockstep m₁.state calls outcomes₁ outcomes₂ := by
  -- The invariant is `same`; counts, traces and sinks of the two machines drift apart.
  induction first generalizing m₂ sink₂ outcomes₂ with
  | nil =>
    cases second
    exact .nil
  | cons ended₁ _ ih =>
    obtain _ | ⟨ended₂, rest₂⟩ := second
    rw [List.forall_mem_cons] at single
    obtain ⟨state, result⟩ := ended₁.agree single.1 same ended₂
    exact .cons state result (ih single.2 state rest₂)

theorem Session.lockstep_printer :
    let m : Machine := { state := printer }
    let calls : List Call := [.step, .setRegister 0 0]
    ∃ outcomes₁ outcomes₂, Session m {} calls outcomes₁ ∧
      Session m { thereafter := .block } calls outcomes₂ ∧
      outcomes₁.map Outcome.result = [.ok (some false), .ok none] ∧
      outcomes₂.map Outcome.result = [.error (.fault (.writeStalled 1)), .ok none] ∧
      Lockstep m.state calls outcomes₁ outcomes₂ := by
  intro m calls
  have taken : ∃ m' sink', m.step {} = some ⟨.ok false, m', sink'⟩ := by
    rw [Machine.step_printer]
    exact ⟨_, _, rfl⟩
  have refused : ∃ m' sink', m.step { thereafter := .block } =
      some ⟨.error (.fault (.writeStalled 1)), m', sink'⟩ := by
    rw [Machine.step_printer]
    exact ⟨_, _, rfl⟩
  obtain ⟨m₁, sink₁, taken⟩ := taken
  obtain ⟨m₂, sink₂, refused⟩ := refused
  have first := Session.cons (.step taken) (.cons (.setRegister 0 0) .nil)
  have second := Session.cons (.step refused) (.cons (.setRegister 0 0) .nil)
  have single : ∀ c ∈ calls, ¬ c.IsRun := by
    intro c member
    simp only [calls, List.mem_cons, List.not_mem_nil, or_false] at member
    rcases member with rfl | rfl <;> exact id
  exact ⟨_, _, first, second, rfl, rfl, Session.lockstep single rfl first second⟩

end RegisterMachine
