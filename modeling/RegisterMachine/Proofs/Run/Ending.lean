import RegisterMachine.Proofs.Run.Bounded

namespace RegisterMachine.Machine

variable {m m' : Machine} {sink sink' : Sink} {o : Outcome Bool}

inductive EndsWithin (m : Machine) (sink : Sink) (bound : Nat) : Outcome Bool → Prop
  | stops {k : Nat} {o : Outcome Bool} (stopped : m.StopsAt sink k o)
    (within : bound = 0 ∨ k ≤ bound) : EndsWithin m sink bound o
  | pauses {m' : Machine} {sink' : Sink} (bounded : 0 < bound)
    (all : m.Continues sink bound m' sink') : EndsWithin m sink bound ⟨.ok false, m', sink'⟩

inductive Emits (m : Machine) (sink : Sink) : List UInt8 → Outcome Bool → Prop
  | completed {payloads : List (List UInt8)} {m' : Machine} {sink' : Sink} {ended : Bool}
    (steps : m.Steps sink payloads m' sink') :
    Emits m sink payloads.flatten ⟨.ok ended, m', sink'⟩
  | failed {payloads : List (List UInt8)} {m' m'' : Machine} {sink' sink'' : Sink} {e : Error}
    (steps : m.Steps sink payloads m' sink')
    (last : m'.step sink' = some ⟨.error e, m'', sink''⟩) :
    Emits m sink payloads.flatten ⟨.error e, m'', sink''⟩

theorem StopsAt.result_ne {k : Nat} (stopped : m.StopsAt sink k o) : o.result ≠ .ok false := by
  obtain ⟨-, -, stops⟩ := stopped
  exact stops

theorem StopsAt.unique {k k' : Nat} {o' : Outcome Bool} (first : m.StopsAt sink k o)
    (second : m.StopsAt sink k' o') : o = o' := by
  have ends := first.runFor_eq (Nat.le_max_left k k')
  rw [second.runFor_eq (Nat.le_max_right k k')] at ends
  exact (Option.some.inj ends).symm

theorem StopsAt.le {k k' : Nat} {o' : Outcome Bool} (first : m.StopsAt sink k o)
    (second : m.StopsAt sink k' o') : k ≤ k' := by
  apply Nat.le_of_not_lt
  intro less
  obtain ⟨m', sink', goesOn⟩ := first.continues less
  have ends := second.runFor_eq (Nat.le_refl k')
  rw [goesOn.runFor_eq] at ends
  cases ends
  exact second.result_ne rfl

theorem StopsAt.succ {k : Nat} (stepped : m.step sink = some ⟨.ok false, m', sink'⟩)
    (stopped : m'.StopsAt sink' k o) : m.StopsAt sink (k + 1) o := by
  obtain ⟨before, last, stops⟩ := stopped
  exact .intro (.succ stepped before) last stops

theorem Continues.stopsAt {n k : Nat} (before : m.Continues sink n m' sink')
    (stopped : m'.StopsAt sink' k o) : m.StopsAt sink (n + k) o := by
  obtain ⟨more, last, stops⟩ := stopped
  exact .intro (before.append more) last stops

theorem runFor_cases {n : Nat} (ran : m.runFor n sink = some o) :
    (∃ k, k ≤ n ∧ m.StopsAt sink k o) ∨
      ∃ m' sink', m.Continues sink n m' sink' ∧ o = ⟨.ok false, m', sink'⟩ := by
  induction n generalizing m sink with
  | zero =>
    cases ran
    exact .inr ⟨m, sink, .zero, rfl⟩
  | succ n ih =>
    cases stepped : m.step sink with
    | none =>
      rw [runFor, stepped] at ran
      cases ran
    | some first =>
      rw [runFor_succ n stepped] at ran
      obtain ⟨result, m', sink'⟩ := first
      by_cases goesOn : result = .ok false
      · subst goesOn
        rcases ih ran with ⟨k, within, stopped⟩ | ⟨m'', sink'', rest, same⟩
        · exact .inl ⟨k + 1, Nat.succ_le_succ within, stopped.succ stepped⟩
        · exact .inr ⟨m'', sink'', .succ stepped rest, same⟩
      · have last : o = ⟨result, m', sink'⟩ := by
          rcases result with e | _ | _
          · exact (Option.some.inj ran).symm
          · exact absurd rfl goesOn
          · exact (Option.some.inj ran).symm
        subst last
        exact .inl ⟨1, Nat.le_add_left 1 n, .intro .zero stepped goesOn⟩

theorem runFor_stops {n : Nat} (ran : m.runFor n sink = some o) (stops : o.result ≠ .ok false) :
    ∃ k, k ≤ n ∧ m.StopsAt sink k o := by
  rcases runFor_cases ran with stopped | ⟨_, _, -, rfl⟩
  · exact stopped
  · exact absurd rfl stops

theorem RunsTo.unique {r r' : Outcome Unit} (first : m.RunsTo sink r) (second : m.RunsTo sink r') :
    r = r' := by
  have ⟨fuel, ran⟩ := first
  obtain ⟨o, bounded, stops, -⟩ := run_eq_some_iff_runFor.mp ran
  obtain ⟨k, -, stopped⟩ := runFor_stops bounded stops
  rw [(stopped.runsTo_iff r).mp first, (stopped.runsTo_iff r').mp second]

theorem RunsTo.exists_runFor {r : Outcome Unit} (runs : m.RunsTo sink r) :
    ∃ o, o.void = r ∧ ∃ k, ∀ n, k ≤ n → m.runFor n sink = some o := by
  obtain ⟨fuel, ran⟩ := runs
  obtain ⟨o, bounded, stops, same⟩ := run_eq_some_iff_runFor.mp ran
  obtain ⟨k, -, stopped⟩ := runFor_stops bounded stops
  exact ⟨o, same, k, fun _ enough => stopped.runFor_eq enough⟩

theorem endsWithin_of_pos {bound : Nat} (positive : 0 < bound) :
    m.EndsWithin sink bound o ↔ m.runFor bound sink = some o := by
  constructor
  · rintro (⟨stopped, within⟩ | ⟨-, all⟩)
    · exact stopped.runFor_eq (by omega)
    · exact all.runFor_eq
  · intro ran
    rcases runFor_cases ran with ⟨k, within, stopped⟩ | ⟨m', sink', all, rfl⟩
    · exact .stops stopped (.inr within)
    · exact .pauses positive all

theorem endsWithin_zero :
    m.EndsWithin sink 0 o ↔ ∃ fuel, m.runFor fuel sink = some o ∧ o.result ≠ .ok false := by
  constructor
  · rintro (⟨stopped, -⟩ | ⟨bounded, -⟩)
    · exact ⟨_, stopped.runFor_eq (Nat.le_refl _), stopped.result_ne⟩
    · exact absurd bounded (Nat.lt_irrefl 0)
  · rintro ⟨fuel, ran, stops⟩
    obtain ⟨k, -, stopped⟩ := runFor_stops ran stops
    exact .stops stopped (.inl rfl)

theorem EndsWithin.unique {bound : Nat} {o' : Outcome Bool} (first : m.EndsWithin sink bound o)
    (second : m.EndsWithin sink bound o') : o = o' := by
  rcases Nat.eq_zero_or_pos bound with rfl | positive
  · obtain ⟨_, ran, stops⟩ := endsWithin_zero.mp first
    obtain ⟨_, ran', stops'⟩ := endsWithin_zero.mp second
    obtain ⟨_, -, stopped⟩ := runFor_stops ran stops
    obtain ⟨_, -, stopped'⟩ := runFor_stops ran' stops'
    exact stopped.unique stopped'
  · have ends := (endsWithin_of_pos positive).mp first
    rw [(endsWithin_of_pos positive).mp second] at ends
    exact (Option.some.inj ends).symm

theorem EndsWithin.accepts {bound : Nat} (ends : m.EndsWithin sink bound o)
    (accepts : sink.Always Act.Accepts) {other : Sink} (accepts' : other.Always Act.Accepts) :
    ∃ last bytes, m.EndsWithin other bound ⟨o.result, o.machine, last⟩ ∧
      o.sink.kept.toList = sink.kept.toList ++ bytes ∧
      last.kept.toList = other.kept.toList ++ bytes := by
  have alike : ∀ n, m.runFor n sink = some o → ∃ last bytes,
      m.runFor n other = some ⟨o.result, o.machine, last⟩ ∧
        o.sink.kept.toList = sink.kept.toList ++ bytes ∧
        last.kept.toList = other.kept.toList ++ bytes := by
    intro n ran
    obtain ⟨result, m', bytes, same⟩ := m.runFor_accepts n
    obtain ⟨first, ran', kept⟩ := same sink accepts
    obtain ⟨last, ranOther, keptOther⟩ := same other accepts'
    rw [ran] at ran'
    cases ran'
    exact ⟨last, bytes, ranOther, kept, keptOther⟩
  rcases Nat.eq_zero_or_pos bound with rfl | positive
  · obtain ⟨fuel, ran, stops⟩ := endsWithin_zero.mp ends
    obtain ⟨last, bytes, ranOther, kept⟩ := alike fuel ran
    exact ⟨last, bytes, endsWithin_zero.mpr ⟨fuel, ranOther, stops⟩, kept⟩
  · obtain ⟨last, bytes, ranOther, kept⟩ := alike bound ((endsWithin_of_pos positive).mp ends)
    exact ⟨last, bytes, (endsWithin_of_pos positive).mpr ranOther, kept⟩

theorem EndsWithin.exists_runFor {bound : Nat} (ends : m.EndsWithin sink bound o) :
    ∃ n, m.runFor n sink = some o := by
  rcases Nat.eq_zero_or_pos bound with rfl | positive
  · obtain ⟨n, ran, -⟩ := endsWithin_zero.mp ends
    exact ⟨n, ran⟩
  · exact ⟨bound, (endsWithin_of_pos positive).mp ends⟩

theorem EndsWithin.emits {bound : Nat} (ends : m.EndsWithin sink bound o)
    (accepts : sink.Always Act.Accepts) :
    ∃ bytes, m.Emits sink bytes o ∧ o.sink.kept.toList = sink.kept.toList ++ bytes := by
  obtain ⟨n, ran⟩ := ends.exists_runFor
  obtain ⟨o', ran', written⟩ := runFor_written n m (accepts.mono fun _ => Act.Accepts.counts)
  rw [ran] at ran'
  cases ran'
  cases written with
  | done steps kept => exact ⟨_, .completed steps, kept⟩
  | failed steps kept last =>
    -- The step that fails delivers nothing.
    obtain ⟨_, -, accepts', -⟩ := steps.accepts accepts accepts
    obtain ⟨-, -, unchanged⟩ := sink_of_accepts accepts' last
    rw [← unchanged _ rfl] at kept
    exact ⟨_, .failed steps last, kept⟩

theorem Emits.eq_nil {bytes : List UInt8} {e : Error} (emits : m.Emits sink bytes o)
    (failed : m.step sink = some ⟨.error e, m', sink'⟩) : bytes = [] := by
  have none : ∀ {payloads m'' sink''}, m.Steps sink payloads m'' sink'' → payloads = [] := by
    intro payloads m'' sink'' steps
    cases steps with
    | nil => rfl
    | cons stepped _ =>
      rw [failed] at stepped
      cases stepped
  cases emits with
  | completed steps => rw [none steps, List.flatten_nil]
  | failed steps _ => rw [none steps, List.flatten_nil]

theorem exists_continues_of_lt {n : Nat} (ends : m.EmitsEnd sink)
    (later : ∀ k o, m.StopsAt sink k o → n < k) : ∃ m' sink', m.Continues sink n m' sink' := by
  by_cases stops : ∃ k o, m.StopsAt sink k o
  · obtain ⟨k, o, stopped⟩ := stops
    exact stopped.continues (later k o stopped)
  · apply exists_continues ends
    intro k o stopped
    exact stops ⟨k, o, stopped⟩

theorem stopsAt_printer (start : m.state = printer) (accepts : sink.Always Act.Accepts) :
    ∃ o, m.StopsAt sink 2 o ∧ o.result = .error (.fault (.unknownOpcode 0)) := by
  obtain ⟨sink', delivered, -, -⟩ := Sink.deliver_accepts accepts [0]
  have first := step_at_printer start sink
  rw [delivered] at first
  have last := (m.settle (.out 1) (.ok false) (printer.past (.out 1))).step_eq sink'
  rw [m.state_settle, pending_past_printer] at last
  exact ⟨_, .intro (.succ first .zero) last (by simp), rfl⟩

end RegisterMachine.Machine
