import Mathlib
import RegisterMachine.Proofs.CommandLine.StepBound

namespace RegisterMachine.CommandLine

/-- The machine failed, the bound stopped it, or the output could not be closed. -/
def Fails (closeError? : Option String) (result : Except Error Bool) : Prop :=
  (∃ f, result = .error (.fault f)) ∨ result = .ok false ∨ closeError? ≠ none

variable {arguments : List String} {o : Options} {env opened : Environment} {bound : Nat}
  {image : Array UInt8} {output : Output}

end RegisterMachine.CommandLine
