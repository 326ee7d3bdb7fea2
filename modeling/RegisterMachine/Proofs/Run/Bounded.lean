import RegisterMachine.Proofs.Output.Runs
import RegisterMachine.Proofs.Step.Record

namespace RegisterMachine

/-- What is left of an outcome when the run does not say whether the program ended. -/
def Outcome.void (o : Outcome Bool) : Outcome Unit := ⟨o.result.map fun _ => (), o.machine, o.sink⟩

namespace Machine

inductive Continues : Machine → Sink → Nat → Machine → Sink → Prop
  | zero {m : Machine} {sink : Sink} : Continues m sink 0 m sink
  | succ {m m' m'' : Machine} {sink sink' sink'' : Sink} {n : Nat}
    (stepped : m.step sink = some ⟨.ok false, m', sink'⟩)
    (rest : Continues m' sink' n m'' sink'') : Continues m sink (n + 1) m'' sink''

/-- The `k`-th step, counted from 1, is the first that ends the program or fails. -/
inductive StopsAt (m : Machine) (sink : Sink) : Nat → Outcome Bool → Prop
  | intro {n : Nat} {m' : Machine} {sink' : Sink} {o : Outcome Bool}
    (before : m.Continues sink n m' sink') (stepped : m'.step sink' = some o)
    (stops : o.result ≠ .ok false) : StopsAt m sink (n + 1) o

def RunsTo (m : Machine) (sink : Sink) (o : Outcome Unit) : Prop := ∃ fuel, m.run fuel sink = some o

def EmitsEnd (m : Machine) (sink : Sink) : Prop :=
  ∀ n m' sink', m.Continues sink n m' sink' → sink'.deliver m'.state.payload ≠ none

/-- A bounded run has been stopped by its bound `n`, after `n` steps, and can be gone on with. -/
structure Pauses (m : Machine) (sink : Sink) (n : Int) (m' : Machine) (sink' : Sink) : Prop where
  paused : m.runBounded n sink = some ⟨.ok false, m', sink'⟩
  steps : (m'.steps : Int) = m.steps + n
  resumes : ∀ o, m'.RunsTo sink' o ↔ m.RunsTo sink o
  resumesBounded : ∀ j, 0 ≤ j → m'.runBounded j sink' = m.runBounded (n + j) sink

variable {m m' : Machine} {sink sink' : Sink} {o : Outcome Bool}

namespace Continues

theorem snoc {n : Nat} (before : m.Continues sink n m' sink') {m'' : Machine} {sink'' : Sink}
    (stepped : m'.step sink' = some ⟨.ok false, m'', sink''⟩) :
    m.Continues sink (n + 1) m'' sink'' := by
  induction before with
  | zero => exact .succ stepped .zero
  | succ first _ ih => exact .succ first (ih stepped)

theorem split {n j : Nat} (all : m.Continues sink (n + j) m' sink') :
    ∃ m₁ sink₁, m.Continues sink n m₁ sink₁ ∧ m₁.Continues sink₁ j m' sink' := by
  induction n generalizing m sink with
  | zero =>
    rw [Nat.zero_add] at all
    exact ⟨m, sink, .zero, all⟩
  | succ n ih =>
    rw [Nat.add_right_comm] at all
    cases all with
    | succ stepped rest =>
      obtain ⟨m₁, sink₁, before, after⟩ := ih rest
      exact ⟨m₁, sink₁, .succ stepped before, after⟩

theorem append {n j : Nat} {m'' : Machine} {sink'' : Sink}
    (first : m.Continues sink n m' sink') (second : m'.Continues sink' j m'' sink'') :
    m.Continues sink (n + j) m'' sink'' := by
  induction first with
  | zero => rwa [Nat.zero_add]
  | succ stepped _ ih =>
    rw [Nat.add_right_comm]
    exact .succ stepped (ih second)

theorem steps_eq {n : Nat} (all : m.Continues sink n m' sink') : m'.steps = m.steps + n := by
  induction all with
  | zero => rfl
  | succ stepped _ ih =>
    cases books_of_step stepped
    rw [ih, Nat.add_right_comm]
    rfl

theorem runFor_add {n : Nat} (all : m.Continues sink n m' sink') (j : Nat) :
    m.runFor (n + j) sink = m'.runFor j sink' := by
  induction all with
  | zero => rw [Nat.zero_add]
  | succ stepped _ ih => rw [Nat.add_right_comm, runFor_succ _ stepped, ih]

theorem runFor_eq {n : Nat} (all : m.Continues sink n m' sink') :
    m.runFor n sink = some ⟨.ok false, m', sink'⟩ := all.runFor_add 0

end Continues

theorem runFor_of_stops (stepped : m.step sink = some o) (stops : o.result ≠ .ok false) (n : Nat) :
    m.runFor (n + 1) sink = some o := by
  obtain ⟨result, m', sink'⟩ := o
  rw [runFor_succ n stepped]
  rcases result with e | _ | _
  · rfl
  · exact absurd rfl stops
  · rfl

theorem StopsAt.runFor_eq {k : Nat} (stopped : m.StopsAt sink k o) {n : Nat} (enough : k ≤ n) :
    m.runFor n sink = some o := by
  obtain ⟨before, stepped, stops⟩ := stopped
  obtain ⟨j, rfl⟩ := Nat.exists_eq_add_of_le enough
  rw [Nat.add_assoc, before.runFor_add, Nat.add_comm]
  exact runFor_of_stops stepped stops j

theorem StopsAt.continues {k : Nat} (stopped : m.StopsAt sink k o) {n : Nat} (less : n < k) :
    ∃ m' sink', m.Continues sink n m' sink' := by
  obtain ⟨before, -, -⟩ := stopped
  obtain ⟨j, rfl⟩ := Nat.exists_eq_add_of_le (Nat.le_of_lt_succ less)
  obtain ⟨m', sink', begun, -⟩ := before.split
  exact ⟨m', sink', begun⟩

theorem run_eq_some_iff_runFor {fuel : Nat} {r : Outcome Unit} :
    m.run fuel sink = some r ↔
      ∃ o, m.runFor fuel sink = some o ∧ o.result ≠ .ok false ∧ o.void = r := by
  rw [run_eq_some_iff]
  obtain ⟨result, m', sink'⟩ := r
  constructor
  · rintro (⟨ran, rfl⟩ | ⟨e, ran, rfl⟩)
    · exact ⟨_, ran, by simp, rfl⟩
    · exact ⟨_, ran, by simp, rfl⟩
  · rintro ⟨⟨e | _ | _, m'', sink''⟩, ran, stops, same⟩
    · cases same
      exact .inr ⟨e, ran, rfl⟩
    · exact absurd rfl stops
    · cases same
      exact .inl ⟨ran, rfl⟩

theorem Continues.lt_of_runFor {n fuel : Nat} (all : m.Continues sink n m' sink')
    (ran : m.runFor fuel sink = some o) (stops : o.result ≠ .ok false) : n < fuel := by
  -- With less fuel the run would still be among the steps that go on.
  apply Nat.lt_of_not_le
  intro less
  obtain ⟨j, rfl⟩ := Nat.exists_eq_add_of_le less
  obtain ⟨_, _, begun, -⟩ := all.split
  rw [begun.runFor_eq] at ran
  cases ran
  exact stops rfl

theorem StopsAt.runsTo_iff {k : Nat} (stopped : m.StopsAt sink k o) (r : Outcome Unit) :
    m.RunsTo sink r ↔ r = o.void := by
  constructor
  · rintro ⟨fuel, ran⟩
    obtain ⟨last, bounded, goesOn, rfl⟩ := run_eq_some_iff_runFor.mp ran
    have enough : k ≤ fuel := by
      obtain ⟨before, -, -⟩ := stopped
      exact before.lt_of_runFor bounded goesOn
    rw [stopped.runFor_eq enough, Option.some.injEq] at bounded
    rw [bounded]
  · rintro rfl
    have bounded := stopped.runFor_eq (Nat.le_refl k)
    obtain ⟨-, -, stops⟩ := stopped
    exact ⟨_, run_eq_some_iff_runFor.mpr ⟨o, bounded, stops, rfl⟩⟩

theorem Continues.runsTo_iff {n : Nat} (all : m.Continues sink n m' sink') (r : Outcome Unit) :
    m'.RunsTo sink' r ↔ m.RunsTo sink r := by
  constructor
  · rintro ⟨fuel, ran⟩
    obtain ⟨o, bounded, stops, rfl⟩ := run_eq_some_iff_runFor.mp ran
    rw [← all.runFor_add] at bounded
    exact ⟨n + fuel, run_eq_some_iff_runFor.mpr ⟨o, bounded, stops, rfl⟩⟩
  · rintro ⟨fuel, ran⟩
    obtain ⟨o, bounded, stops, rfl⟩ := run_eq_some_iff_runFor.mp ran
    have more := all.lt_of_runFor bounded stops
    obtain ⟨j, rfl⟩ := Nat.exists_eq_add_of_le (Nat.le_of_lt more)
    rw [all.runFor_add] at bounded
    exact ⟨j, run_eq_some_iff_runFor.mpr ⟨o, bounded, stops, rfl⟩⟩

theorem Continues.pauses {n : Nat} (all : m.Continues sink n m' sink') :
    m.Pauses sink n m' sink' where
  paused := all.runFor_eq
  steps := by
    rw [all.steps_eq]
    omega
  resumes := all.runsTo_iff
  resumesBounded := by
    intro j nonneg
    have sum : ((n : Int) + j).toNat = n + j.toNat := by omega
    rw [runBounded, runBounded, sum, all.runFor_add]

theorem step_ne_none (ends : sink.deliver m.state.payload ≠ none) : m.step sink ≠ none := by
  rcases m.state.step_cases with ⟨i, -, -, delivers⟩ | ⟨-, -, result, -, same⟩
  · rw [delivers m rfl]
    simpa using ends
  · obtain ⟨m', stepped⟩ := same m rfl
    rw [stepped]
    exact Option.some_ne_none _

theorem exists_continues (ends : m.EmitsEnd sink) (never : ∀ k o, ¬ m.StopsAt sink k o) (n : Nat) :
    ∃ m' sink', m.Continues sink n m' sink' := by
  induction n with
  | zero => exact ⟨m, sink, .zero⟩
  | succ n ih =>
    obtain ⟨m', sink', before⟩ := ih
    obtain ⟨⟨result, m'', sink''⟩, stepped⟩ :=
      Option.ne_none_iff_exists'.mp (step_ne_none (ends n m' sink' before))
    by_cases goesOn : result = .ok false
    · subst goesOn
      exact ⟨m'', sink'', before.snoc stepped⟩
    · exact absurd (.intro before stepped goesOn) (never (n + 1) _)

theorem Continues.counts {n : Nat} (all : m.Continues sink n m' sink')
    (counts : sink.Always Act.Counts) : sink'.Always Act.Counts := by
  induction all with
  | zero => exact counts
  | @succ m _ _ _ _ _ _ stepped _ ih =>
    obtain ⟨o, ended, later, -⟩ := m.step_counts counts
    rw [stepped] at ended
    cases ended
    exact ih later

theorem emitsEnd_of_counts (m : Machine) (counts : sink.Always Act.Counts) : m.EmitsEnd sink := by
  intro n m' sink' before
  obtain ⟨_, _, _, _, delivered, -⟩ := Sink.deliver_counts (before.counts counts) m'.state.payload
  rw [delivered]
  exact Option.some_ne_none _

/-- If the `k`-th step stops, an unbounded run ends with it, and so does every run with a bound of
at least `k`; with a smaller bound a run pauses. If no step stops, every bounded run returns. A
bound of 0 or less changes nothing. -/
theorem bounded_runs (m : Machine) (sink : Sink) (ends : m.EmitsEnd sink) :
    (∀ k o, m.StopsAt sink k o →
      (∀ r, m.RunsTo sink r ↔ r = o.void) ∧
      (∀ n : Int, k ≤ n → m.runBounded n sink = some o) ∧
      ∀ n : Int, 0 ≤ n → n < k → ∃ m' sink', m.Pauses sink n m' sink') ∧
    ((∀ k o, ¬ m.StopsAt sink k o) →
      ∀ n : Int, ∃ m' sink', m.runBounded n sink = some ⟨.ok false, m', sink'⟩) ∧
    ∀ n : Int, n ≤ 0 → m.runBounded n sink = some ⟨.ok false, m, sink⟩ := by
  refine ⟨?_, ?_, ?_⟩
  · intro k o stopped
    refine ⟨stopped.runsTo_iff, ?_, ?_⟩
    · intro n enough
      exact stopped.runFor_eq (by omega)
    · intro n nonneg less
      obtain ⟨m', sink', begun⟩ := stopped.continues (show n.toNat < k by omega)
      have pauses := begun.pauses
      rw [Int.toNat_of_nonneg nonneg] at pauses
      exact ⟨m', sink', pauses⟩
  · intro never n
    obtain ⟨m', sink', all⟩ := exists_continues ends never n.toNat
    exact ⟨m', sink', all.runFor_eq⟩
  · intro n none
    rw [runBounded, Int.toNat_eq_zero.mpr none]
    rfl

theorem bounded_runs_printer :
    let m : Machine := { state := printer }
    m.EmitsEnd {} ∧ ∃ o, m.StopsAt {} 2 o ∧ o.result = .error (.fault (.unknownOpcode 0)) ∧
      (∀ r, m.RunsTo {} r ↔ r = o.void) ∧ ∃ m' sink', m.Pauses {} 1 m' sink' := by
  intro m
  have ends : m.EmitsEnd {} := by
    apply emitsEnd_of_counts
    exact ⟨by simp, trivial⟩
  obtain ⟨m', sink', stepped, state⟩ : ∃ m' sink',
      m.step {} = some ⟨.ok false, m', sink'⟩ ∧ m'.state = printer.past (.out 1) := by
    rw [step_printer]
    exact ⟨_, _, rfl, rfl⟩
  have last := m'.step_eq sink'
  rw [state, pending_past_printer] at last
  have stops : m.StopsAt {} 2 _ := .intro (.succ stepped .zero) last (by simp)
  obtain ⟨runsTo, -, pauses⟩ := (m.bounded_runs {} ends).1 2 _ stops
  exact ⟨ends, _, stops, rfl, runsTo, pauses 1 (by decide) (by decide)⟩

end Machine

end RegisterMachine
