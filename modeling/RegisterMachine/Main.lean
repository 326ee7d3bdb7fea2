import RegisterMachine.CommandLine.Session

namespace RegisterMachine.Program

open CommandLine

def nodeAt (path : String) : IO (Option Node) := do
  let file := (← IO.currentDir) / path
  if !(← file.pathExists) then return none
  match (← file.metadata).type with
  | .dir => return some .directory
  | .file => return some (.file (← IO.FS.readBinFile file).data)
  | _ => return some .nullDevice

def addPath (fs : FileSystem) (path : String) : IO FileSystem := do
  let mut fs := fs
  let mut here := fs.start path
  for name in pathComponents path do
    here := if name = "." then here else if name = ".." then here.dropLast else here ++ [name]
    if let some node ← nodeAt ("/" ++ "/".intercalate here) then
      fs := fs.put here node
  return fs

def fileSystemAlong (paths : List String) : IO FileSystem := do
  let here := (← IO.currentDir).toString
  let start ← addPath {} here
  paths.foldlM addPath { start with workingDirectory := pathComponents here }

def stepsBetweenWrites : Nat := 4096

/-- Runs a machine to the end or for a number of steps, and writes its output on the way. A write
that fails ends the run as a refusal of the output does. -/
partial def drive (target : IO.FS.Stream) (left? : Option Nat) (m : Machine) (sink : Sink) :
    IO (Outcome Bool) := do
  let count := min stepsBetweenWrites (left?.getD stepsBetweenWrites)
  match m.runFor count sink with
  | none => throw (IO.userError "the output never takes all bytes")
  | some outcome =>
    let fresh := outcome.sink.kept.extract sink.kept.size outcome.sink.kept.size
    try
      target.write ⟨fresh⟩
      target.flush
    catch e =>
      let refusal : Refusal := ⟨.device, toString e⟩
      return { outcome with result := .error (.fault (.writeRefused fresh.size refusal)) }
    let left? := left?.map (· - count)
    match outcome.result, left? with
    | .ok false, some 0 => return outcome
    | .ok false, _ => drive target left? outcome.machine outcome.sink
    | _, _ => return outcome

def outputStream (l : Launch) : IO IO.FS.Stream :=
  match l.options.outputPath? with
  | none => IO.getStdout
  | some path => return IO.FS.Stream.ofHandle (← IO.FS.Handle.mk path .write)

def usageLine : String :=
  "usage: [image] [--hex HEX] [-o FILE] [--max-steps N] [-d] [-t] [-q] [--debug] [-h]"

def finish (report : Report) : IO UInt32 := do
  let stderr ← IO.getStderr
  stderr.putStr report.stderrText
  match report.verdict with
  | .finished _ => pure ()
  | .help => IO.println usageLine
  | .usage error =>
    stderr.putStrLn usageLine
    stderr.putStrLn ("error: " ++ error.message?.getD "invalid arguments")
  | .aborted abort => stderr.putStrLn abort.message
  return report.verdict.status.toUInt32

def run (arguments : List String) : IO UInt32 := do
  let files ← match parse arguments with
    | .ok (.run o) => fileSystemAlong (o.imagePath?.toList ++ o.outputPath?.toList)
    | _ => pure {}
  match prepare arguments { files } with
  | .error report =>
    (← IO.getStdout).write ⟨report.stdout.kept⟩
    finish report
  | .ok launch =>
    let bound? := if launch.bound = 0 then none else some launch.bound
    let outcome ← drive (← outputStream launch) bound? launch.machine launch.sink
    finish (launch.conclude outcome)

end RegisterMachine.Program

def main (arguments : List String) : IO UInt32 := RegisterMachine.Program.run arguments
