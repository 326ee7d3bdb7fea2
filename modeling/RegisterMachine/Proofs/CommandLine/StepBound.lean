import RegisterMachine.Proofs.CommandLine.Leading
import RegisterMachine.Proofs.CommandLine.OutputFile
import RegisterMachine.Proofs.Text.Integers
import RegisterMachine.Proofs.Text.Numerals

namespace RegisterMachine.CommandLine

def Options.limited (o : Options) (limit : Nat) : Options := { o with maxSteps := .given limit }

variable {arguments bounded : List String} {o : Options} {env opened : Environment}
  {image : Array UInt8} {output : Output} {limit : Nat}

theorem Options.bound_limited (o : Options) (limit : Nat) :
    (o.limited limit).bound = .ok limit := bound_of_given rfl

theorem Options.Launches.limited {bound : Nat}
    (launches : o.Launches env bound image opened output) (limit : Nat) :
    (o.limited limit).Launches env limit image opened output where
  loads := by
    obtain ⟨-, named⟩ := load_eq_ok_iff.mp launches.loads
    have named' : (o.limited limit).Names env.files image := by
      cases named with
      | inline noPath given reads => exact .inline noPath given reads
      | path given noHex reads => exact .path given noHex reads
    exact load_eq_ok_iff.mpr ⟨o.bound_limited limit, named'⟩
  fits := launches.fits
  runs := launches.runs
  opens := launches.opens

end RegisterMachine.CommandLine
