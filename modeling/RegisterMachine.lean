import RegisterMachine.Error
import RegisterMachine.Text.Quoted
import RegisterMachine.Text.Integer
import RegisterMachine.Text.HexBytes
import RegisterMachine.Word
import RegisterMachine.Sink
import RegisterMachine.State
import RegisterMachine.Listing
import RegisterMachine.Handlers
import RegisterMachine.Image.Direct
import RegisterMachine.Machine.Summary
import RegisterMachine.CommandLine.Session
import RegisterMachine.Main
import RegisterMachine.Proofs.Step.Table
import RegisterMachine.Proofs.Session.Lockstep
import RegisterMachine.Proofs.Session.Soundness
import RegisterMachine.Proofs.Session.Recording
import RegisterMachine.Proofs.Session.Replay
import RegisterMachine.Proofs.Run.Ending
import RegisterMachine.Proofs.Run.Keeping
import RegisterMachine.Proofs.Session.Tracing
import RegisterMachine.Proofs.CommandLine.Launch
import RegisterMachine.Proofs.CommandLine.Conclusion
import RegisterMachine.Proofs.CommandLine.StepBound
import RegisterMachine.Proofs.CommandLine.Refinement
import RegisterMachine.Proofs.CommandLine.Diagnostics
import RegisterMachine.Proofs.CommandLine.OutputFile
import RegisterMachine.Proofs.Output.Progress
import RegisterMachine.Proofs.Listing.Execution
import RegisterMachine.Proofs.CommandLine.Files
import RegisterMachine.Proofs.CommandLine.Padding
import RegisterMachine.Proofs.Step.Locality
import RegisterMachine.Proofs.Run.Pointer
import RegisterMachine.Proofs.State.Access
import RegisterMachine.Proofs.Registry.Dispatch
import RegisterMachine.Proofs.Step.Safety
import RegisterMachine.Proofs.Instruction.Assembly
import RegisterMachine.Proofs.Trace.Chain
import RegisterMachine.Proofs.CommandLine.Narration
import RegisterMachine.Proofs.CommandLine.InlineImage
import RegisterMachine.Proofs.Registry.Bindings
import RegisterMachine.Proofs.Output.Legible
import RegisterMachine.Proofs.Machine.Creation
import RegisterMachine.Proofs.Machine.Renderings
import RegisterMachine.Proofs.Word.Views
