import RegisterMachine.CommandLine.Load
import RegisterMachine.CommandLine.Output

namespace RegisterMachine.CommandLine

structure Launch where
  options : Options
  /-- The number of steps after which to stop; 0 does not stop. -/
  bound : Nat
  environment : Environment
  output : Output
  machine : Machine

/-- The listing of an image, on standard output. It goes past the script of the sink. -/
def listImage (env : Environment) (m : Machine) (size : Nat) : Report :=
  let text := disassemble m.state.memory.toArray 0 size ++ "\n"
  let stdout := { env.stdout with kept := env.stdout.kept ++ textBytes text.toList }
  { env with stdout }.report (.finished 0)

def Options.prepare (o : Options) (env : Environment) : Except Report Launch :=
  match o.load env.files with
  | .error verdict => .error (env.report verdict)
  | .ok (bound, image) =>
    match Machine.create (.bytes image) o.trace with
    | .error (.fault f) => .error (env.report (.finished 1) [faultLine f])
    | .error e => .error (env.report (.aborted (.escaped e)))
    | .ok machine =>
      if o.disassemble then .error (listImage env machine image.size)
      else match o.openOutput env with
        | .error (.inl abort) => .error (env.report (.aborted abort))
        | .error (.inr f) => .error (env.report (.finished 1) [faultLine f])
        | .ok (environment, output) =>
          let machine := { machine with logging := o.debug }
          .ok { options := o, bound, environment, output, machine }

def prepare (arguments : List String) (env : Environment) : Except Report Launch :=
  match parse arguments with
  | .error e => .error (env.report (.usage e))
  | .ok .help => .error (env.report .help)
  | .ok (.run o) => o.prepare env

namespace Launch

def sink (l : Launch) : Sink := l.output.sink l.environment

/-- Runs the machine of a session. The value says whether the program ended, which a run without a
bound awaits for `fuel` steps. -/
def run (l : Launch) (fuel : Nat) : Option (Outcome Bool) :=
  if l.bound = 0 then
    (l.machine.run fuel l.sink).map fun o => ⟨o.result.map fun _ => true, o.machine, o.sink⟩
  else l.machine.runFor l.bound l.sink

def logLines (m : Machine) : List String :=
  m.log.toList.map fun entry => s!"DEBUG regvm.machine: {entry.text}"

def endLines (bound : Nat) : Except Error Bool → List String
  | .ok true => []
  | .ok false =>
    [s!"WARNING regvm.main: step limit of {bound} reached",
     s!"Error: step limit ({bound}) reached"]
  | .error (.fault f) => [faultLine f]
  | .error _ => []

def finalLines (o : Options) (m : Machine) : List String :=
  (if o.trace then [m.trace.text] else []) ++ if o.quiet then [] else m.summary.lines

/-- Concludes a session after its run. A failure that is no fault of the machine leaves the session
without a status, but not before the output is closed. -/
def conclude (l : Launch) (outcome : Outcome Bool) : Report :=
  let (env, closeError?) := l.output.close l.environment outcome.sink
  let closeLines := closeError?.toList.map fun reason => faultLine (.flushFailed reason)
  let runLines := logLines outcome.machine ++ endLines l.bound outcome.result
  match outcome.result with
  | .error (.fault _) =>
    env.report (.finished 1) (runLines ++ closeLines ++ finalLines l.options outcome.machine)
  | .error e => env.report (.aborted (.escaped e)) (runLines ++ closeLines)
  | .ok ended =>
    env.report (.finished (if ended && closeLines.isEmpty then 0 else 1))
      (runLines ++ closeLines ++ finalLines l.options outcome.machine)

end Launch

/-- A session of the command line; `none` if the program does not end within `fuel` steps. -/
def session (fuel : Nat) (arguments : List String) (env : Environment) : Option Report :=
  match prepare arguments env with
  | .error report => some report
  | .ok launch => (launch.run fuel).map launch.conclude

end RegisterMachine.CommandLine
