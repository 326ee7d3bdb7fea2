import RegisterMachine.Proofs.CommandLine.Decline
import RegisterMachine.Proofs.CommandLine.Leading
import RegisterMachine.Proofs.Text.HexGrammar

namespace RegisterMachine.CommandLine

structure Options.GivesHex (o : Options) (text : String) (bound : Nat) : Prop where
  path : o.imagePath? = none
  hex : o.hex? = some (.given text)
  bound : o.maxSteps = .given bound

variable {text : String} {image : Array UInt8} {o : Options} {bound : Nat}

theorem Options.GivesHex.load_eq (gives : o.GivesHex text bound) (files : FileSystem) :
    o.load files = (inlineImage text).map fun image => (bound, image) := by
  simp only [Options.load, gives.path, gives.hex, Options.bound_of_given gives.bound]
  cases inlineImage text <;> rfl

end RegisterMachine.CommandLine
