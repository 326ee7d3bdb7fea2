import RegisterMachine.CommandLine.Report

namespace RegisterMachine.CommandLine

inductive Output
  | standard
  | file (location : Location)
  deriving DecidableEq, Repr

def bufferSize : Nat := 4096

/-- The path of the output file; an empty or blank one counts as none. -/
def Options.outputPath? (o : Options) : Option String :=
  match o.output? with
  | some (.given path) => if path.isEmpty then none else some path
  | _ => none

def Options.openOutput (o : Options) (env : Environment) :
    Except (Abort ⊕ Fault) (Environment × Output) :=
  match o.outputPath? with
  | none => .ok (env, .standard)
  | some path =>
    if path.contains '\x00' then .error (.inl .nulInPath)
    else match env.files.openForWriting path with
      | .ok (files, location) => .ok ({ env with files }, .file location)
      | .error e => .error (.inr (.outputUnavailable path (e.report path)))

namespace Output

/-- The sink of an output that has been opened. A full device fails only once the bytes held back
exceed the buffer. -/
def sink (env : Environment) : Output → Sink
  | standard => env.stdout
  | file location =>
    match env.files.node? location with
    | some .fullDevice =>
      { thereafter := .within bufferSize ⟨.device, FileError.noSpace.description⟩ }
    | _ => {}

def close (env : Environment) (sink : Sink) : Output → Environment × Option String
  | standard => ({ env with stdout := sink }, env.flushError?)
  | file location =>
    match env.files.node? location with
    | some .fullDevice =>
      (env, if sink.kept.isEmpty then none else some FileError.noSpace.description)
    | some (.file _) => ({ env with files := env.files.put location (.file sink.kept) }, none)
    | _ => (env, none)

end Output

end RegisterMachine.CommandLine
