import RegisterMachine.Proofs.Listing.Execution
import RegisterMachine.Proofs.Run.Ending

namespace RegisterMachine

def StepRecord.entry (r : StepRecord) : LogEntry := .executed r.step r.ip r.instruction

inductive RunEnd
  | limited
  | exited
  | failed (ip : Int) (fault : Fault)

namespace RunEnd

def result : RunEnd → Except Error Bool
  | limited => .ok false
  | exited => .ok true
  | failed _ f => .error (.fault f)

def entries (steps : Nat) : RunEnd → List LogEntry
  | limited => []
  | exited => [.ended steps]
  | failed ip f => [.failed steps ip f]

end RunEnd

namespace Machine

inductive Performs : Machine → Sink → List StepRecord → Machine → Sink → Prop
  | nil {m : Machine} {sink : Sink} : Performs m sink [] m sink
  | cons {m m' m'' : Machine} {sink sink' sink'' : Sink} {i : Instruction}
    {records : List StepRecord} (pending : m.state.pending = .ok i)
    (stepped : m.step sink = some ⟨.ok false, m', sink'⟩)
    (rest : Performs m' sink' records m'' sink'') :
    Performs m sink (m.record i false :: records) m'' sink''

/-- A run to its end, with the records of the steps that succeed. A bound of 0 stands for none. -/
inductive RunsWithin (m : Machine) (sink : Sink) (bound : Nat) :
    List StepRecord → RunEnd → Machine → Prop
  | limited {records : List StepRecord} {m' : Machine} {sink' : Sink}
    (performed : m.Performs sink records m' sink') (bounded : 0 < bound)
    (all : records.length = bound) : RunsWithin m sink bound records .limited m'
  | exited {records : List StepRecord} {m' m'' : Machine} {sink' sink'' : Sink} {i : Instruction}
    (performed : m.Performs sink records m' sink') (pending : m'.state.pending = .ok i)
    (last : m'.step sink' = some ⟨.ok true, m'', sink''⟩)
    (within : bound = 0 ∨ records.length < bound) :
    RunsWithin m sink bound (records ++ [m'.record i true]) .exited m''
  | failed {records : List StepRecord} {m' m'' : Machine} {sink' sink'' : Sink} {f : Fault}
    (performed : m.Performs sink records m' sink')
    (last : m'.step sink' = some ⟨.error (.fault f), m'', sink''⟩)
    (within : bound = 0 ∨ records.length < bound) :
    RunsWithin m sink bound records (.failed m'.ip f) m''

variable {m m' m'' : Machine} {sink sink' sink'' : Sink} {o : Outcome Bool} {i : Instruction}
  {records more : List StepRecord} {ending : RunEnd} {bound : Nat}

def entries (m : Machine) : Except Error Bool → List LogEntry
  | .error (.fault f) => [.failed m.steps m.ip f]
  | .error _ => []
  | .ok ends =>
    match m.state.pending with
    | .error _ => []
    | .ok i => .executed m.steps m.ip i :: if ends then [.ended (m.steps + 1)] else []

theorem log_logFailure (m : Machine) (e : Error) (logging : m.logging = true) (s : State) :
    ({ m with state := s }.logFailure m.ip e).log.toList =
      m.log.toList ++ m.entries (.error e) := by
  cases e with
  | fault f =>
    simp only [logFailure, logging, ↓reduceIte, Array.toList_push]
    rfl
  | _ => simp [logFailure, entries]

theorem log_of_step (logging : m.logging = true) (stepped : m.step sink = some o) :
    o.machine.log.toList = m.log.toList ++ m.entries o.result := by
  rw [step_eq] at stepped
  cases pending : m.state.pending with
  | error e =>
    rw [pending] at stepped
    cases stepped
    exact m.log_logFailure e logging m.state
  | ok i =>
    rw [pending] at stepped
    rcases Option.map_eq_some_iff.mp stepped with ⟨⟨result, c⟩, -, rfl⟩
    cases result with
    | error e => exact m.log_logFailure e logging c.state
    | ok ends =>
      simp only [settle, recordStep, logging, ↓reduceIte, entries, pending]
      cases ends <;> simp

theorem logging_of_step (stepped : m.step sink = some o) : o.machine.logging = m.logging := by
  cases books_of_step stepped <;> rfl

theorem log_of_succeeded {ends : Bool} (logging : m.logging = true)
    (pending : m.state.pending = .ok i)
    (stepped : m.step sink = some ⟨.ok ends, m', sink'⟩) :
    m'.log.toList = m.log.toList ++ (m.record i ends).entry ::
      if ends then [.ended (m.steps + 1)] else [] := by
  have added := log_of_step logging stepped
  simp only [entries, pending] at added
  exact added

namespace Performs

theorem continues (performs : m.Performs sink records m' sink') :
    m.Continues sink records.length m' sink' := by
  induction performs with
  | nil => exact .zero
  | cons _ stepped _ ih => exact .succ stepped ih

theorem executes (performs : m.Performs sink records m' sink') (rest : m'.Executes more m'') :
    m.Executes (records ++ more) m'' := by
  induction performs with
  | nil => exact rest
  | cons pending stepped _ ih => exact .cons pending stepped (ih rest)

theorem logging_eq (performs : m.Performs sink records m' sink') : m'.logging = m.logging := by
  induction performs with
  | nil => rfl
  | cons _ stepped _ ih => exact ih.trans (logging_of_step stepped)

theorem log_eq (performs : m.Performs sink records m' sink') (logging : m.logging = true) :
    m'.log.toList = m.log.toList ++ records.map StepRecord.entry := by
  induction performs with
  | nil => simp
  | cons pending stepped _ ih =>
    have rest := ih ((logging_of_step stepped).trans logging)
    have added := log_of_succeeded logging pending stepped
    rw [rest, added]
    simp

end Performs

theorem Continues.exists_performs {n : Nat} (all : m.Continues sink n m' sink') :
    ∃ records, m.Performs sink records m' sink' ∧ records.length = n := by
  induction all with
  | zero => exact ⟨[], .nil, rfl⟩
  | succ stepped _ ih =>
    rcases ih with ⟨records, rest, length⟩
    cases books_of_step stepped with
    | executed pending => exact ⟨_, .cons pending stepped rest, congrArg (· + 1) length⟩

theorem EndsWithin.exists_runsWithin (ends : m.EndsWithin sink bound o)
    (faults : ∀ e, o.result = .error e → ∃ f, e = .fault f) :
    ∃ records ending,
      m.RunsWithin sink bound records ending o.machine ∧ o.result = ending.result := by
  cases ends with
  | pauses bounded all =>
    rcases all.exists_performs with ⟨records, performs, length⟩
    exact ⟨records, .limited, .limited performs bounded length, rfl⟩
  | @stops k _ stopped within =>
    rcases stopped with ⟨before, stepped, stops⟩
    rcases before.exists_performs with ⟨records, performs, rfl⟩
    rcases o with ⟨result, m'', sink''⟩
    rcases result with e | _ | _
    · rcases faults e rfl with ⟨f, rfl⟩
      exact ⟨records, _, .failed performs stepped within, rfl⟩
    · exact absurd rfl stops
    · cases books_of_step stepped with
      | executed pending => exact ⟨_, .exited, .exited performs pending stepped within, rfl⟩

namespace RunsWithin

theorem steps_eq (runs : m.RunsWithin sink bound records ending m') :
    m'.steps = m.steps + records.length := by
  cases runs with
  | limited performed => exact performed.continues.steps_eq
  | exited performed _ last =>
    have before := performed.continues.steps_eq
    cases books_of_step last
    simp [before, Nat.add_assoc]
  | failed performed last =>
    have before := performed.continues.steps_eq
    cases books_of_step last
    exact before

theorem log_eq (runs : m.RunsWithin sink bound records ending m') (logging : m.logging = true) :
    m'.log.toList =
      m.log.toList ++ records.map StepRecord.entry ++
        ending.entries (m.steps + records.length) := by
  cases runs with
  | limited performed =>
    rw [performed.log_eq logging]
    simp [RunEnd.entries]
  | exited performed pending last =>
    have before := performed.log_eq logging
    have counted := performed.continues.steps_eq
    have added := log_of_succeeded (performed.logging_eq.trans logging) pending last
    rw [added, before, counted]
    simp [RunEnd.entries, Nat.add_assoc]
  | failed performed last =>
    have before := performed.log_eq logging
    have counted := performed.continues.steps_eq
    have added := log_of_step (performed.logging_eq.trans logging) last
    rw [before] at added
    rw [added, RunEnd.entries, ← counted]
    rfl

theorem exists_executes (runs : m.RunsWithin sink bound records ending m') :
    ∃ m'', m.Executes records m'' ∧ m'.trace = m''.trace := by
  cases runs with
  | limited performed =>
    have all := performed.executes .nil
    rw [List.append_nil] at all
    exact ⟨m', all, rfl⟩
  | exited performed pending last => exact ⟨m', performed.executes (.cons pending last .nil), rfl⟩
  | @failed _ m'' _ _ _ _ performed last =>
    have all := performed.executes .nil
    rw [List.append_nil] at all
    cases books_of_step last
    exact ⟨m'', all, rfl⟩

theorem numbered (runs : m.RunsWithin sink bound records ending m') (wf : m.state.WellFormed) :
    records.map (·.step) = List.range' m.steps records.length := by
  rcases runs.exists_executes with ⟨_, executes, -⟩
  exact executes.numbered wf

theorem records_eq (runs : m.RunsWithin sink bound records ending m') (wf : m.state.WellFormed)
    (tracing : m.tracing = true) :
    m'.trace.records = newest m.trace.limit (m.trace.records ++ records) := by
  rcases runs.exists_executes with ⟨_, executes, same⟩
  rw [same]
  exact executes.records_eq wf tracing

end RunsWithin

end Machine

end RegisterMachine
