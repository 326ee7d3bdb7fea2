import RegisterMachine.Proofs.Run.Ending
import RegisterMachine.Proofs.Session.Calls

namespace RegisterMachine

def Call.runBounded (bound : Int) : Call := .runFor bound.toNat

variable {m : Machine} {sink : Sink}

def Outcome.reply {α : Type} (f : α → Option Bool) (o : Outcome α) : Outcome (Option Bool) :=
  ⟨o.result.map f, o.machine, o.sink⟩

namespace Call

theorem ends_step_iff {o : Outcome (Option Bool)} :
    step.Ends m sink o ↔ ∃ r, m.step sink = some r ∧ r.reply some = o := by
  constructor
  · rintro ⟨ended⟩
    exact ⟨_, ended, rfl⟩
  · rintro ⟨_, ended, rfl⟩
    exact .step ended

theorem ends_run_iff {o : Outcome (Option Bool)} :
    run.Ends m sink o ↔ ∃ r, m.RunsTo sink r ∧ r.reply (fun _ => none) = o := by
  constructor
  · intro ends
    cases ends with
    | run ended => exact ⟨_, ⟨_, ended⟩, rfl⟩
  · rintro ⟨_, ⟨_, ended⟩, rfl⟩
    exact .run ended

theorem ends_runFor_iff {n : Nat} {o : Outcome (Option Bool)} :
    (runFor n).Ends m sink o ↔ ∃ r, m.runFor n sink = some r ∧ r.reply some = o := by
  constructor
  · intro ends
    cases ends with
    | runFor ended => exact ⟨_, ended, rfl⟩
  · rintro ⟨_, ended, rfl⟩
    exact .runFor ended

theorem ends_runBounded_iff {bound : Int} {o : Outcome (Option Bool)} :
    (runBounded bound).Ends m sink o ↔ ∃ r, m.runBounded bound sink = some r ∧ r.reply some = o :=
  ends_runFor_iff

theorem ends_setRegister_iff {index value : Int} {o : Outcome (Option Bool)} :
    (setRegister index value).Ends m sink o ↔
      (match m.setRegister index value with
      | .ok m' => ⟨.ok none, m', sink⟩
      | .error e => ⟨.error e, m, sink⟩) = o := by
  constructor
  · intro ends
    cases ends
    rfl
  · rintro rfl
    exact .setRegister index value

theorem Ends.unique {c : Call} {o o' : Outcome (Option Bool)} (first : c.Ends m sink o)
    (second : c.Ends m sink o') : o = o' := by
  cases c with
  | step =>
    obtain ⟨_, ended, rfl⟩ := ends_step_iff.mp first
    obtain ⟨_, ended', rfl⟩ := ends_step_iff.mp second
    rw [ended, Option.some.injEq] at ended'
    rw [ended']
  | run =>
    obtain ⟨_, ended, rfl⟩ := ends_run_iff.mp first
    obtain ⟨_, ended', rfl⟩ := ends_run_iff.mp second
    rw [ended.unique ended']
  | runFor n =>
    obtain ⟨_, ended, rfl⟩ := ends_runFor_iff.mp first
    obtain ⟨_, ended', rfl⟩ := ends_runFor_iff.mp second
    rw [ended, Option.some.injEq] at ended'
    rw [ended']
  | setRegister index value =>
    rw [ends_setRegister_iff] at first second
    exact first.symm.trans second
  | setTracing on =>
    cases first
    cases second
    rfl

end Call

theorem Session.unique {calls : List Call} {outcomes outcomes' : List (Outcome (Option Bool))}
    (first : Session m sink calls outcomes) (second : Session m sink calls outcomes') :
    outcomes = outcomes' := by
  induction first generalizing outcomes' with
  | nil =>
    cases second
    rfl
  | cons ended _ ih =>
    obtain _ | ⟨ended', rest⟩ := second
    obtain rfl := ended.unique ended'
    rw [ih rest]

end RegisterMachine
