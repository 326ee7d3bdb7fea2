import RegisterMachine.Proofs.CommandLine.Conclusion
import RegisterMachine.Proofs.Files.Opening

namespace RegisterMachine.CommandLine

/-- What a session leaves of its output: a standard output that has become the sink, or a file with
the bytes that the sink kept. -/
def Report.Leaves (r : Report) (opened : Environment) (sink : Sink) : Output → Prop
  | .standard => r.stdout = sink ∧ r.files = opened.files
  | .file location =>
    r.stdout = opened.stdout ∧
      (∀ content, opened.files.node? location = some (.file content) →
        r.files.node? location = some (.file sink.kept)) ∧
      ∀ other, other ≠ location → r.files.node? other = opened.files.node? other

theorem Launch.leaves_conclude (l : Launch) (outcome : Outcome Bool) :
    (l.conclude outcome).Leaves l.environment outcome.sink l.output := by
  rw [conclude_eq, closed]
  cases l.output with
  | standard => exact ⟨rfl, rfl⟩
  | file location =>
    cases found : l.environment.files.node? location with
    | none => simp [Report.Leaves, Output.close, found]
    | some node =>
      cases node with
      | file content =>
        have below : location ≠ [] := by
          rintro rfl
          cases found
        simp only [Report.Leaves, Output.close, found]
        refine ⟨trivial, ?_, ?_⟩
        · intro _ _
          exact FileSystem.node?_put_self _ _ below
        · intro other differs
          exact FileSystem.node?_put_of_ne _ _ differs
      | _ => simp [Report.Leaves, Output.close, found]

end RegisterMachine.CommandLine
