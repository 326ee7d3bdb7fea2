import RegisterMachine.Proofs.Output.Delivery
import RegisterMachine.Proofs.Step.Equation

namespace RegisterMachine

def State.payload (s : State) : List UInt8 :=
  match s.pending with
  | .error _ => []
  | .ok i => i.payload (s.past i)

theorem State.payload_of_pending {s : State} {i : Instruction} (pending : s.pending = .ok i) :
    s.payload = i.payload (s.past i) := by
  rw [payload, pending]

theorem State.Rejects.own {s : State} {f : Fault} (rejects : s.Rejects f) :
    ¬ (Error.fault f).FromSink := by
  cases rejects <;> exact id

theorem State.step_cases (s : State) :
    (∃ i, s.pending = .ok i ∧ i.IsOutput ∧
      ∀ m : Machine, m.state = s → ∀ sink, m.step sink =
        (sink.deliver s.payload).map fun (result, sink) =>
          let result := result.map fun _ => false
          ⟨result, m.settle i result (s.past i), sink⟩) ∨
    ((∀ i, s.pending = .ok i → ¬ i.IsOutput) ∧ s.payload = [] ∧
      ∃ result, (∀ e, result = .error e → ¬ e.FromSink) ∧
        ∀ m : Machine, m.state = s → ∃ m', ∀ sink, m.step sink = some ⟨result, m', sink⟩) := by
  cases pending : s.pending with
  | error e =>
    obtain ⟨f, rfl, rejects⟩ := s.rejects_of_pending pending
    refine .inr ⟨by simp, by rw [payload, pending], .error (.fault f), ?_, ?_⟩
    · rintro _ ⟨⟩
      exact rejects.own
    · rintro m rfl
      refine ⟨m.logFailure m.ip (.fault f), ?_⟩
      intro sink
      rw [Machine.step_eq, pending]
  | ok i =>
    have offers := payload_of_pending pending
    rcases i.effect_cases (s.past i) with
      ⟨output, delivers⟩ | ⟨silent, empty, ⟨a, fails⟩ | ⟨s', ends, succeeds⟩⟩
    · refine .inl ⟨i, rfl, output, ?_⟩
      rintro m rfl sink
      simp only [Machine.step_eq, pending, delivers, offers, Effect.start, Option.map_map]
      rfl
    · refine .inr ⟨?_, by rw [offers, empty], .error (.fault (.spanOutside a 4)), ?_, ?_⟩
      · rintro _ ⟨⟩
        exact silent
      · rintro _ ⟨⟩
        exact id
      · rintro m rfl
        refine ⟨m.settle i (.error (.fault (.spanOutside a 4))) (m.state.past i), ?_⟩
        intro sink
        simp only [Machine.step_eq, pending, fails]
        rfl
    · refine .inr ⟨?_, by rw [offers, empty], .ok ends, ?_, ?_⟩
      · rintro _ ⟨⟩
        exact silent
      · rintro _ ⟨⟩
      · rintro m rfl
        exact ⟨m.settle i (.ok ends) s', Machine.step_succeeds rfl pending succeeds⟩

end RegisterMachine
