import RegisterMachine.Proofs.Run.Bounded

namespace RegisterMachine

/-- A machine that keeps its trace only if `trace` is set, and its log only if `log` is set. -/
def Machine.keeping (trace log : Bool) (m : Machine) : Machine :=
  { m with
    tracing := trace && m.tracing
    trace := if trace then m.trace else {}
    logging := log && m.logging
    log := if log then m.log else #[] }

def Outcome.keeping {α : Type} (trace log : Bool) (o : Outcome α) : Outcome α :=
  { o with machine := o.machine.keeping trace log }

variable {trace log : Bool}

theorem Outcome.result_of_keeping {α : Type} {o o' : Outcome α}
    (same : o.keeping trace log = o'.keeping trace log) : o.result = o'.result := by
  have result := congrArg Outcome.result same
  exact result

theorem Outcome.sink_of_keeping {α : Type} {o o' : Outcome α}
    (same : o.keeping trace log = o'.keeping trace log) : o.sink = o'.sink := by
  have sink := congrArg Outcome.sink same
  exact sink

namespace Machine

theorem state_of_keeping {m m' : Machine} (same : m.keeping trace log = m'.keeping trace log) :
    m.state = m'.state := by
  have state := congrArg Machine.state same
  exact state

theorem steps_of_keeping {m m' : Machine} (same : m.keeping trace log = m'.keeping trace log) :
    m.steps = m'.steps := by
  have steps := congrArg Machine.steps same
  exact steps

theorem logFailure_keeping (m : Machine) (ip : Int) (e : Error) :
    (m.keeping trace log).logFailure ip e = (m.logFailure ip e).keeping trace log := by
  cases e with
  | fault f =>
    cases log with
    | false =>
      have silent : (m.keeping trace false).logging = false := rfl
      obtain ⟨log, same⟩ := m.logFailure_eq ip (.fault f)
      simp only [logFailure, silent] at same ⊢
      rw [same]
      rfl
    | true =>
      have same : (m.keeping trace true).logging = m.logging := rfl
      simp only [logFailure, same]
      cases m.logging <;> rfl
  | _ => rfl

theorem recordStep_keeping (m : Machine) (ip : Int) (i : Instruction) (before : Registers)
    (ends : Bool) :
    (m.keeping trace log).recordStep ip i before ends =
      (m.recordStep ip i before ends).keeping trace log := by
  obtain ⟨state, steps, tracing, records, logging, entries⟩ := m
  cases trace <;> cases tracing <;> cases log <;> cases logging <;> rfl

theorem settle_keeping (m : Machine) (i : Instruction) (result : Except Error Bool) (s : State) :
    (m.keeping trace log).settle i result s = (m.settle i result s).keeping trace log := by
  cases result with
  | error e => exact logFailure_keeping { m with state := s } m.ip e
  | ok ends => exact recordStep_keeping { m with state := s } m.ip i m.state.registers ends

theorem step_keeping (trace log : Bool) (m : Machine) (sink : Sink) :
    (m.keeping trace log).step sink = (m.step sink).map (Outcome.keeping trace log) := by
  have state : (m.keeping trace log).state = m.state := rfl
  have ip : (m.keeping trace log).ip = m.ip := rfl
  simp only [step_eq, state]
  cases m.state.pending with
  | error e =>
    simp only [Option.map_some, logFailure_keeping, ip]
    rfl
  | ok i =>
    simp only [Option.map_map, settle_keeping]
    rfl

theorem runFor_keeping (trace log : Bool) (n : Nat) (m : Machine) (sink : Sink) :
    (m.keeping trace log).runFor n sink = (m.runFor n sink).map (Outcome.keeping trace log) := by
  induction n generalizing m sink with
  | zero => rfl
  | succ n ih =>
    have first := m.step_keeping trace log sink
    cases stepped : m.step sink with
    | none =>
      rw [stepped] at first
      rw [runFor, runFor, first, stepped]
      rfl
    | some o =>
      obtain ⟨result, m', sink'⟩ := o
      rw [stepped] at first
      rw [runFor_succ n first, runFor_succ n stepped]
      rcases result with e | _ | _
      · rfl
      · exact ih m' sink'
      · rfl

theorem run_keeping (trace log : Bool) (fuel : Nat) (m : Machine) (sink : Sink) :
    (m.keeping trace log).run fuel sink = (m.run fuel sink).map (Outcome.keeping trace log) := by
  simp only [run, runFor_keeping]
  rcases m.runFor fuel sink with _ | ⟨e | _ | _, m', sink'⟩ <;> rfl

theorem setRegister_keeping (trace log : Bool) (m : Machine) (index value : Int) :
    (m.keeping trace log).setRegister index value =
      (m.setRegister index value).map (keeping trace log) := by
  unfold setRegister
  cases checkRegister index .registerIndex <;> rfl

end Machine

end RegisterMachine
