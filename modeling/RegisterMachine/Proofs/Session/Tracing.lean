import Mathlib.Data.List.Forall2
import RegisterMachine.Proofs.Run.Keeping
import RegisterMachine.Proofs.Session.History
import RegisterMachine.Proofs.Session.Replies
import RegisterMachine.Proofs.Text.Lines

namespace RegisterMachine

def Call.isSwitch : Call → Bool
  | setTracing _ => true
  | _ => false

def withoutSwitches (calls : List Call) : List Call := calls.filter (!·.isSwitch)

/-- What the calls of a session besides switches return and leave, but for trace and log. -/
def observed (calls : List Call) (outcomes : List (Outcome (Option Bool))) :
    List (Outcome (Option Bool)) :=
  ((calls.zip outcomes).filter (!·.1.isSwitch)).map fun (_, o) => o.keeping false false

structure Machine.Shortens (n : Nat) (m m' : Machine) : Prop where
  same : m.keeping false false = m'.keeping false false
  tracing : m.tracing = m'.tracing
  limit : m.trace.limit = some n
  unlimited : m'.trace.limit = none
  records : m.trace.records = newest (some n) m'.trace.records

variable {m m' m₁ m₂ : Machine} {sink : Sink} {trace log : Bool}

theorem Machine.runsTo_keeping_iff {r : Outcome Unit} :
    (m.keeping trace log).RunsTo sink r ↔ ∃ r', m.RunsTo sink r' ∧ r'.keeping trace log = r := by
  simp only [RunsTo, run_keeping, Option.map_eq_some_iff]
  constructor
  · rintro ⟨fuel, r', ran, same⟩
    exact ⟨r', ⟨fuel, ran⟩, same⟩
  · rintro ⟨r', ⟨fuel, ran⟩, same⟩
    exact ⟨fuel, r', ran, same⟩

theorem Outcome.exists_reply_keeping {α : Type} {ends : Outcome α → Prop} (f : α → Option Bool)
    {o : Outcome (Option Bool)} :
    (∃ r, (∃ r', ends r' ∧ r'.keeping trace log = r) ∧ r.reply f = o) ↔
      ∃ o', (∃ r, ends r ∧ r.reply f = o') ∧ o'.keeping trace log = o := by
  constructor
  · rintro ⟨_, ⟨r, ended, rfl⟩, rfl⟩
    exact ⟨_, ⟨r, ended, rfl⟩, rfl⟩
  · rintro ⟨_, ⟨r, ended, rfl⟩, rfl⟩
    exact ⟨_, ⟨r, ended, rfl⟩, rfl⟩

theorem Call.ends_keeping_iff (trace log : Bool) {c : Call} (other : c.isSwitch = false)
    {o : Outcome (Option Bool)} :
    c.Ends (m.keeping trace log) sink o ↔ ∃ o', c.Ends m sink o' ∧ o'.keeping trace log = o := by
  cases c with
  | step =>
    simp only [ends_step_iff, Machine.step_keeping, Option.map_eq_some_iff]
    exact Outcome.exists_reply_keeping some
  | run =>
    simp only [ends_run_iff, Machine.runsTo_keeping_iff]
    exact Outcome.exists_reply_keeping _
  | runFor n =>
    simp only [ends_runFor_iff, Machine.runFor_keeping, Option.map_eq_some_iff]
    exact Outcome.exists_reply_keeping some
  | setRegister index value =>
    simp only [ends_setRegister_iff, Machine.setRegister_keeping, exists_eq_left']
    cases m.setRegister index value <;> rfl
  | setTracing on => cases other

namespace Session

variable {calls : List Call} {outcomes : List (Outcome (Option Bool))}

theorem without (session : Session m sink calls outcomes) :
    Session (m.keeping false false) sink (withoutSwitches calls) (observed calls outcomes) := by
  induction session with
  | nil => exact .nil
  | @cons m sink c calls o outcomes ended _ ih =>
    cases switch : c.isSwitch with
    | true =>
      cases ended with
      | setTracing on => exact ih
      | _ => cases switch
    | false =>
      have kept := (Call.ends_keeping_iff false false switch).mpr ⟨o, ended, rfl⟩
      have all := Session.cons kept ih
      simpa [withoutSwitches, observed, switch] using all

theorem exists_of_without {seen : List (Outcome (Option Bool))}
    (session : Session (m.keeping false false) sink (withoutSwitches calls) seen) :
    ∃ outcomes, Session m sink calls outcomes := by
  induction calls generalizing m sink seen with
  | nil => exact ⟨[], .nil⟩
  | cons c calls ih =>
    cases switch : c.isSwitch with
    | true =>
      cases c with
      | setTracing on =>
        have rest : Session ({ m with tracing := on }.keeping false false) sink
            (withoutSwitches calls) seen := session
        obtain ⟨outcomes, rest⟩ := ih rest
        exact ⟨_, .cons (.setTracing on) rest⟩
      | _ => cases switch
    | false =>
      rw [withoutSwitches, List.filter_cons_of_pos (by simp [switch])] at session
      obtain _ | ⟨kept, rest⟩ := session
      obtain ⟨o, ended, rfl⟩ := (Call.ends_keeping_iff false false switch).mp kept
      obtain ⟨outcomes, rest⟩ := ih rest
      exact ⟨_, .cons ended rest⟩

end Session

namespace Machine

variable {n : Nat}

theorem Shortens.step (shortens : m.Shortens n m') {o o' : Outcome Bool}
    (first : m.step sink = some o) (second : m'.step sink = some o') :
    o.keeping false false = o'.keeping false false ∧ o.machine.Shortens n o'.machine := by
  have kept := m.step_keeping false false sink
  have kept' := m'.step_keeping false false sink
  rw [shortens.same, kept', first, second] at kept
  have same := (Option.some.inj kept).symm
  have state : m.state = m'.state := state_of_keeping shortens.same
  have steps : m.steps = m'.steps := steps_of_keeping shortens.same
  have result := Outcome.result_of_keeping same
  have machine := congrArg Outcome.machine same
  refine ⟨same, ?_⟩
  cases books_of_step first with
  | failed =>
    cases books_of_step second with
    | failed => exact { shortens with same := machine }
    | executed => cases result
  | @executed i ends log sink' pending =>
    cases books_of_step second with
    | failed => cases result
    | @executed i' ends' log' sink'' pending' =>
      cases result
      rw [state, pending', Except.ok.injEq] at pending
      subst pending
      have record : m.record i' ends = m'.record i' ends := by
        simp only [Machine.record, Machine.ip, state, steps]
      refine ⟨machine, shortens.tracing, ?_, ?_, ?_⟩
      · simp only
        split
        · exact (m.trace.limit_push _).trans shortens.limit
        · exact shortens.limit
      · simp only
        split
        · exact (m'.trace.limit_push _).trans shortens.unlimited
        · exact shortens.unlimited
      · simp only [shortens.tracing, record]
        split
        · rw [Trace.records_push, Trace.records_push, shortens.limit, shortens.unlimited,
            shortens.records, newest_append]
          rfl
        · exact shortens.records

theorem Shortens.runFor (k : Nat) (shortens : m.Shortens n m') {o o' : Outcome Bool}
    (first : m.runFor k sink = some o) (second : m'.runFor k sink = some o') :
    o.keeping false false = o'.keeping false false ∧ o.machine.Shortens n o'.machine := by
  induction k generalizing m m' sink with
  | zero =>
    cases first
    cases second
    refine ⟨?_, shortens⟩
    rw [Outcome.keeping, Outcome.keeping, shortens.same]
  | succ k ih =>
    cases stepped : m.step sink with
    | none =>
      rw [Machine.runFor, stepped] at first
      cases first
    | some r =>
      cases stepped' : m'.step sink with
      | none =>
        rw [Machine.runFor, stepped'] at second
        cases second
      | some r' =>
        obtain ⟨same, later⟩ := shortens.step stepped stepped'
        rw [runFor_succ k stepped] at first
        rw [runFor_succ k stepped'] at second
        obtain ⟨result, m₁, sink₁⟩ := r
        obtain ⟨result', m₂, sink₂⟩ := r'
        obtain rfl : result = result' := Outcome.result_of_keeping same
        obtain rfl : sink₁ = sink₂ := Outcome.sink_of_keeping same
        rcases result with e | _ | _
        · cases first
          cases second
          exact ⟨same, later⟩
        · exact ih later first second
        · cases first
          cases second
          exact ⟨same, later⟩

end Machine

theorem Call.Ends.shortens {c : Call} {n : Nat} (shortens : m.Shortens n m')
    {o o' : Outcome (Option Bool)} (first : c.Ends m sink o) (second : c.Ends m' sink o') :
    o.sink = o'.sink ∧ o.machine.Shortens n o'.machine := by
  cases c with
  | step =>
    obtain ⟨r, ended, rfl⟩ := ends_step_iff.mp first
    obtain ⟨r', ended', rfl⟩ := ends_step_iff.mp second
    obtain ⟨same, later⟩ := shortens.step ended ended'
    have sinks : r.sink = r'.sink := Outcome.sink_of_keeping same
    exact ⟨sinks, later⟩
  | run =>
    obtain ⟨r, ended, rfl⟩ := ends_run_iff.mp first
    obtain ⟨r', ended', rfl⟩ := ends_run_iff.mp second
    obtain ⟨o, rfl, k, ran⟩ := ended.exists_runFor
    obtain ⟨o', rfl, k', ran'⟩ := ended'.exists_runFor
    obtain ⟨same, later⟩ := shortens.runFor _ (ran _ (Nat.le_max_left k k'))
      (ran' _ (Nat.le_max_right k k'))
    have sinks : o.sink = o'.sink := Outcome.sink_of_keeping same
    exact ⟨sinks, later⟩
  | runFor k =>
    obtain ⟨r, ended, rfl⟩ := ends_runFor_iff.mp first
    obtain ⟨r', ended', rfl⟩ := ends_runFor_iff.mp second
    obtain ⟨same, later⟩ := shortens.runFor k ended ended'
    have sinks : r.sink = r'.sink := Outcome.sink_of_keeping same
    exact ⟨sinks, later⟩
  | setRegister index value =>
    have same := m.setRegister_keeping false false index value
    rw [shortens.same, Machine.setRegister_keeping] at same
    rw [ends_setRegister_iff] at first second
    subst first second
    cases set : m.setRegister index value with
    | error e =>
      cases set' : m'.setRegister index value with
      | error e' => exact ⟨rfl, shortens⟩
      | ok m₂ =>
        rw [set, set'] at same
        cases same
    | ok m₁ =>
      cases set' : m'.setRegister index value with
      | error e' =>
        rw [set, set'] at same
        cases same
      | ok m₂ =>
        rw [set, set'] at same
        obtain ⟨i, -, rfl⟩ := Machine.eq_of_setRegister set
        obtain ⟨i', -, rfl⟩ := Machine.eq_of_setRegister set'
        exact ⟨rfl, { shortens with same := (Except.ok.inj same).symm }⟩
  | setTracing on =>
    cases first
    cases second
    exact ⟨rfl, { shortens with same := shortens.same, tracing := rfl }⟩

theorem Session.shortens {n : Nat} {calls : List Call}
    {outcomes outcomes' : List (Outcome (Option Bool))} (shortens : m.Shortens n m')
    (first : Session m sink calls outcomes) (second : Session m' sink calls outcomes') :
    List.Forall₂ (fun o o' => o.machine.Shortens n o'.machine) outcomes outcomes' := by
  induction first generalizing m' outcomes' with
  | nil =>
    cases second
    exact .nil
  | cons ended _ ih =>
    obtain _ | ⟨ended', rest⟩ := second
    obtain ⟨sinks, later⟩ := ended.shortens shortens ended'
    rw [← sinks] at rest
    exact .cons later (ih later rest)

theorem Machine.Shortens.lines {n : Nat} (shortens : m.Shortens n m') :
    linesOf m.trace.text <:+ linesOf m'.trace.text ∧
      (linesOf m.trace.text).length = min n (linesOf m'.trace.text).length := by
  have suffix := newest_suffix (some n) m'.trace.records
  have length := length_newest (some n) m'.trace.records
  rw [← shortens.records] at suffix length
  rw [Trace.linesOf_text, Trace.linesOf_text, List.length_map, List.length_map]
  exact ⟨suffix.map StepRecord.text, length⟩

namespace Machine

theorem load_of_create {image : Image} {tracing : Bool} {limit? : Option Int}
    (created : create image tracing limit? = .ok m) :
    ∃ bytes, image.toBytes = .ok bytes ∧ State.ofImage bytes = .ok m.state := by
  obtain ⟨bytes, converted, created⟩ := bind_eq_ok_iff.mp created
  obtain ⟨state, loaded, created⟩ := bind_eq_ok_iff.mp created
  have given : image.toBytes = .ok bytes := by
    cases given : image.toBytes with
    | error e =>
      rw [given] at converted
      cases converted
    | ok bytes' =>
      rw [given] at converted
      simpa only [Except.mapError, Except.ok.injEq] using converted
  refine ⟨bytes, given, ?_⟩
  rw [loaded]
  cases limit? with
  | none => exact congrArg _ (congrArg Machine.state (Except.ok.inj created))
  | some limit =>
    simp only at created
    split at created
    · cases created
    · split at created
      · cases created
      · exact congrArg _ (congrArg Machine.state (Except.ok.inj created))

theorem state_eq_of_create {image : Image} {tracing₁ tracing₂ : Bool}
    {limit₁? limit₂? : Option Int} (first : create image tracing₁ limit₁? = .ok m₁)
    (second : create image tracing₂ limit₂? = .ok m₂) : m₁.state = m₂.state := by
  obtain ⟨bytes, converted, loaded⟩ := load_of_create first
  obtain ⟨bytes', converted', loaded'⟩ := load_of_create second
  rw [converted, Except.ok.injEq] at converted'
  rw [← converted', loaded, Except.ok.injEq] at loaded'
  exact loaded'

theorem keeping_of_create {image : Image} {tracing : Bool} {limit? : Option Int} (logging : Bool)
    (created : create image tracing limit? = .ok m) :
    { m with logging }.keeping false false = { state := m.state } := by
  obtain ⟨bytes, rfl⟩ := eq_of_create created
  rfl

theorem shortens_of_create {image : Image} {tracing : Bool} {n : Nat} (logging₁ logging₂ : Bool)
    (limited : create image tracing (some (n : Int)) = .ok m₁)
    (unlimited : create image tracing none = .ok m₂) :
    { m₁ with logging := logging₁ }.Shortens n { m₂ with logging := logging₂ } := by
  have same : { m₁ with logging := logging₁ }.keeping false false =
      { m₂ with logging := logging₂ }.keeping false false := by
    rw [keeping_of_create _ limited, keeping_of_create _ unlimited,
      state_eq_of_create limited unlimited]
  obtain ⟨bytes₁, rfl⟩ := eq_of_create limited
  obtain ⟨bytes₂, rfl⟩ := eq_of_create unlimited
  refine ⟨same, rfl, rfl, rfl, ?_⟩
  rw [Option.map_some, Option.map_none, Trace.records_empty, Trace.records_empty]
  exact List.drop_nil.symm

end Machine

/-- Two machines with the same image may be traced or not, with any limits, and tracing may be
switched anywhere: the calls of a session return and leave the same on both. If only the limit
differs, the lines of the trace with a limit are at each point the last ones of the other. -/
theorem Session.tracing_observes {image : Image} {tracing₁ tracing₂ : Bool}
    {limit₁? limit₂? : Option Int} (logging₁ logging₂ : Bool)
    (created₁ : Machine.create image tracing₁ limit₁? = .ok m₁)
    (created₂ : Machine.create image tracing₂ limit₂? = .ok m₂) {calls₁ calls₂ : List Call}
    (same : withoutSwitches calls₁ = withoutSwitches calls₂)
    {outcomes₁ : List (Outcome (Option Bool))}
    (first : Session { m₁ with logging := logging₁ } sink calls₁ outcomes₁) :
    (∃ outcomes₂, Session { m₂ with logging := logging₂ } sink calls₂ outcomes₂) ∧
      ∀ outcomes₂, Session { m₂ with logging := logging₂ } sink calls₂ outcomes₂ →
        observed calls₁ outcomes₁ = observed calls₂ outcomes₂ ∧
        ∀ n : Nat, tracing₁ = tracing₂ → calls₁ = calls₂ → limit₁? = some (n : Int) →
          limit₂? = none →
          List.Forall₂ (fun o₁ o₂ =>
            linesOf o₁.machine.trace.text <:+ linesOf o₂.machine.trace.text ∧
            (linesOf o₁.machine.trace.text).length =
              min n (linesOf o₂.machine.trace.text).length) outcomes₁ outcomes₂ := by
  -- Both sessions are the session of one bare machine with the switches left out.
  have bare := first.without
  rw [Machine.keeping_of_create _ created₁, Machine.state_eq_of_create created₁ created₂, same,
    ← Machine.keeping_of_create logging₂ created₂] at bare
  refine ⟨bare.exists_of_without, ?_⟩
  intro outcomes₂ second
  refine ⟨bare.unique second.without, ?_⟩
  rintro n rfl rfl rfl rfl
  have shortens := Machine.shortens_of_create logging₁ logging₂ created₁ created₂
  exact (first.shortens shortens second).imp fun _ _ later => later.lines

theorem Session.tracing_observes_printer :
    let limited : Machine := { state := printer, tracing := true, trace := { limit := some 1 } }
    let unlimited : Machine := { state := printer, tracing := true, trace := { limit := none } }
    let untraced : Machine := { state := printer }
    let calls : List Call := [.step, .setRegister 0 0, .step, .runBounded (-1)]
    let switched : List Call :=
      [.step, .setRegister 0 0, .setTracing true, .step, .runBounded (-1)]
    ∃ outcomes outcomes₁ outcomes₂, Session limited {} calls outcomes ∧
      Session unlimited {} calls outcomes₁ ∧ Session untraced {} switched outcomes₂ ∧
      observed calls outcomes = observed switched outcomes₂ ∧
      List.Forall₂ (fun o o₁ =>
        linesOf o.machine.trace.text <:+ linesOf o₁.machine.trace.text ∧
        (linesOf o.machine.trace.text).length =
          min 1 (linesOf o₁.machine.trace.text).length) outcomes outcomes₁ := by
  intro limited unlimited untraced calls switched
  have created : Machine.create (.bytes #[6, 1]) true (some ((1 : Nat) : Int)) = .ok limited := rfl
  have created₁ : Machine.create (.bytes #[6, 1]) true none = .ok unlimited := rfl
  have created₂ : Machine.create (.bytes #[6, 1]) = .ok untraced := rfl
  obtain ⟨o, first, -, state, accepts'⟩ :=
    Machine.step_of_printer (m := limited) rfl Sink.accepts_empty
  have back : (printer.past (.out 1)).setRegister 0 (toWord 0) = printer := rfl
  have set : o.machine.setRegister 0 0 = .ok _ := o.machine.setRegister_eq 0 0
  rw [state, back] at set
  have reset : (Call.setRegister 0 0).Ends o.machine o.sink
      ⟨.ok none, { o.machine with state := printer }, o.sink⟩ :=
    Call.ends_setRegister_iff.mpr (by rw [set])
  obtain ⟨o', second, -⟩ :=
    Machine.step_of_printer (m := { o.machine with state := printer }) rfl accepts'
  have none : (Call.runBounded (-1)).Ends o'.machine o'.sink
      ⟨.ok (some false), o'.machine, o'.sink⟩ := Call.ends_runBounded_iff.mpr ⟨_, rfl, rfl⟩
  have session : Session limited {} calls _ :=
    .cons (.step first) (.cons reset (.cons (.step second) (.cons none .nil)))
  have alike : withoutSwitches calls = withoutSwitches calls := rfl
  have differ : withoutSwitches calls = withoutSwitches switched := rfl
  obtain ⟨⟨outcomes₁, session₁⟩, seen₁⟩ :=
    tracing_observes false false created created₁ alike session
  obtain ⟨⟨outcomes₂, session₂⟩, seen₂⟩ :=
    tracing_observes false false created created₂ differ session
  obtain ⟨-, lines⟩ := seen₁ outcomes₁ session₁
  obtain ⟨seen, -⟩ := seen₂ outcomes₂ session₂
  exact ⟨_, outcomes₁, outcomes₂, session, session₁, session₂, seen, lines 1 rfl rfl rfl rfl⟩

end RegisterMachine
