import Mathlib
import RegisterMachine.Proofs.CommandLine.Decline
import RegisterMachine.Proofs.CommandLine.OutputFile

namespace RegisterMachine.CommandLine

inductive Declines (arguments : List String) (env : Environment) : Report → Prop
  | grammar {e : UsageError} (unparsed : parse arguments = .error e) :
    Declines arguments env (env.report (.usage e))
  | help (parsed : parse arguments = .ok .help) : Declines arguments env (env.report .help)
  | options {o : Options} {report : Report} (parsed : parse arguments = .ok (.run o))
    (declines : o.Declines env report) : Declines arguments env report

/-- A session has changed no file and made no write to standard output; all that is new there is the
listing of the image, if it was asked for. -/
structure Report.Untouched (r : Report) (arguments : List String) (env : Environment) : Prop where
  files : r.files = env.files
  unwritten : r.stdout.script = env.stdout.script ∧ r.stdout.offered = env.stdout.offered
  silent : r.stdout = env.stdout ∨
    ∃ o bound image, parse arguments = .ok (.run o) ∧ o.load env.files = .ok (bound, image) ∧
      o.disassemble = true ∧
      r = listImage env { state := { memory := Memory.ofImage image } } image.size

/-- The output of the run of an image is all that the file at a location holds, and no other file
has changed. -/
structure Report.Holds (r : Report) (env : Environment) (o : Options) (bound : Nat)
    (image : Array UInt8) (location : Location) : Prop where
  output : ∃ outcome bytes, (o.machine image).EndsWithin {} bound outcome ∧
    (o.machine image).Emits {} bytes outcome ∧
    env.files.Replaces location bytes.toArray r.files
  empty : ∀ e m sink, (o.machine image).step {} = some ⟨.error e, m, sink⟩ →
    env.files.Replaces location #[] r.files
  silent : r.stdout = env.stdout

/-- What a session does to files. Only one that comes to a run opens a file, to which the path of the
output then leads. -/
inductive SessionFiles (arguments : List String) (env : Environment) : Prop
  | declines {report : Report} (declines : Declines arguments env report)
    (stops : prepare arguments env = .error report)
    (reports : ∀ fuel, session fuel arguments env = some report)
    (untouched : report.Untouched arguments env)
  | standard {o : Options} {bound : Nat} {image : Array UInt8}
    (parsed : parse arguments = .ok (.run o)) (noPath : o.outputPath? = none)
    (launches : o.Launches env bound image env .standard)
    (unchanged : ∀ report, Reports arguments env report → report.files = env.files)
  | device {o : Options} {bound : Nat} {image : Array UInt8} {path : String} {location : Location}
    {node : Node} (parsed : parse arguments = .ok (.run o)) (named : o.outputPath? = some path)
    (launches : o.Launches env bound image env (.file location))
    (leads : env.files.locate path = .ok location)
    (found : env.files.node? location = some node)
    (device : node = .fullDevice ∨ node = .nullDevice)
    (unchanged : ∀ report, Reports arguments env report →
      report.files = env.files ∧ report.stdout = env.stdout)
  | file {o : Options} {bound : Nat} {image : Array UInt8} {opened : Environment} {path : String}
    {location : Location} (parsed : parse arguments = .ok (.run o))
    (named : o.outputPath? = some path)
    (launches : o.Launches env bound image opened (.file location))
    (leads : opened.files.locate path = .ok location)
    (regular : ∀ node, env.files.node? location = some node → ∃ content, node = .file content)
    (truncated : env.files.Replaces location #[] opened.files)
    (holds : ∀ report, Reports arguments env report → report.Holds env o bound image location)

variable {arguments : List String} {o : Options} {env opened : Environment} {bound : Nat}
  {image : Array UInt8} {report : Report}

theorem Declines.untouched (declines : Declines arguments env report) :
    report.Untouched arguments env := by
  cases declines with
  | @options o _ parsed declines =>
    cases declines with
    | @listed bound image loads fits lists =>
      exact ⟨rfl, ⟨rfl, rfl⟩, .inr ⟨o, bound, image, parsed, loads, lists, rfl⟩⟩
    | _ => exact ⟨rfl, ⟨rfl, rfl⟩, .inl rfl⟩
  | _ => exact ⟨rfl, ⟨rfl, rfl⟩, .inl rfl⟩

theorem Declines.prepare_eq (declines : Declines arguments env report) :
    prepare arguments env = .error report := by
  cases declines with
  | grammar unparsed => rw [prepare, unparsed]
  | help parsed => rw [prepare, parsed]
  | options parsed declines =>
    rw [prepare, parsed]
    exact declines.prepare_eq

theorem opens_of_openOutput {output : Output} (opens : o.openOutput env = .ok (opened, output)) :
    (o.outputPath? = none ∧ opened = env ∧ output = .standard) ∨
      ∃ path location files, o.outputPath? = some path ∧ opened = { env with files } ∧
        output = .file location ∧ env.files.Opens location files ∧
        files.locate path = .ok location := by
  unfold Options.openOutput at opens
  split at opens
  · rename_i noPath
    cases opens
    exact .inl ⟨noPath, rfl, rfl⟩
  · rename_i path named
    split at opens
    · cases opens
    · split at opens
      · rename_i files location opened'
        cases opens
        obtain ⟨opens, leads⟩ := FileSystem.opens_of_openForWriting opened'
        exact .inr ⟨path, location, files, named, rfl, rfl, opens, leads⟩
      · cases opens

theorem Launch.files_conclude (l : Launch) (outcome : Outcome Bool) {location : Location}
    (output : l.output = .file location) :
    (l.conclude outcome).files =
      match l.environment.files.node? location with
      | some (.file _) => l.environment.files.put location (.file outcome.sink.kept)
      | _ => l.environment.files := by
  rw [conclude_eq, closed, output]
  simp only [Output.close]
  rcases l.environment.files.node? location with _ | _ | _ | _ | _ <;> rfl

theorem Options.Launches.holds {location : Location}
    (launches : o.Launches env bound image opened (.file location))
    (parsed : parse arguments = .ok (.run o)) (below : location ≠ [])
    (truncated : env.files.Replaces location #[] opened.files)
    (reported : Reports arguments env report) : report.Holds env o bound image location := by
  obtain ⟨outcome, ended, rfl⟩ := (launches.reports_iff parsed).mp reported
  have sink : (Output.file location).sink opened = {} := by
    simp only [Output.sink, truncated.file]
  rw [sink] at ended
  obtain ⟨bytes, emits, kept⟩ := ended.emits Sink.accepts_empty
  have content : outcome.sink.kept = bytes.toArray := by
    simpa using congrArg List.toArray kept
  have written : env.files.Replaces location bytes.toArray
      ((o.launch bound image opened (.file location)).conclude outcome).files := by
    have closed := Launch.files_conclude (o.launch bound image opened (.file location)) outcome rfl
    have found : (o.launch bound image opened (.file location)).environment.files.node? location =
        some (.file #[]) := truncated.file
    rw [closed, found, content]
    exact truncated.trans (FileSystem.replaces_put _ below _)
  refine ⟨⟨outcome, bytes, ended, emits, written⟩, ?_, ?_⟩
  · intro e m sink failed
    rwa [emits.eq_nil failed] at written
  · obtain ⟨unchanged, -⟩ :=
      Launch.leaves_conclude (o.launch bound image opened (.file location)) outcome
    have same : opened.stdout = env.stdout := by
      rw [Options.eq_of_openOutput launches.opens]
    exact unchanged.trans same

theorem SessionFiles.of_declines (declines : Declines arguments env report) :
    SessionFiles arguments env := by
  have stops := declines.prepare_eq
  have reports (fuel : Nat) : session fuel arguments env = some report := by
    rw [session, stops]
  exact .declines declines stops reports declines.untouched

theorem SessionFiles.of_launches {output : Output} (parsed : parse arguments = .ok (.run o))
    (launches : o.Launches env bound image opened output) : SessionFiles arguments env := by
  rcases opens_of_openOutput launches.opens with
    ⟨noPath, rfl, rfl⟩ | ⟨path, location, files, named, rfl, rfl, opens, leads⟩
  · refine .standard parsed noPath launches ?_
    intro report reported
    obtain ⟨outcome, -, rfl⟩ := (launches.reports_iff parsed).mp reported
    obtain ⟨-, unchanged⟩ := Launch.leaves_conclude (o.launch bound image _ .standard) outcome
    exact unchanged
  · cases opens with
    | file regular below =>
      have truncated := env.files.replaces_put below #[]
      refine .file parsed named launches leads regular truncated ?_
      intro report reported
      exact launches.holds parsed below truncated reported
    | device found device =>
      refine .device parsed named launches leads found device ?_
      intro report reported
      obtain ⟨outcome, -, rfl⟩ := (launches.reports_iff parsed).mp reported
      obtain ⟨unchanged, -⟩ :=
        Launch.leaves_conclude (o.launch bound image _ (.file location)) outcome
      refine ⟨?_, unchanged⟩
      rw [Launch.files_conclude _ outcome rfl]
      rcases device with rfl | rfl
      all_goals simp only [Options.launch, found]

theorem session_files (arguments : List String) (env : Environment) :
    SessionFiles arguments env := by
  cases parsed : parse arguments with
  | error e => exact .of_declines (.grammar parsed)
  | ok request =>
    cases request with
    | help => exact .of_declines (.help parsed)
    | run o =>
      by_cases launches : ∃ bound image opened output, o.Launches env bound image opened output
      · obtain ⟨bound, image, opened, output, launches⟩ := launches
        exact .of_launches parsed launches
      · simp only [not_exists] at launches
        obtain ⟨report, declines⟩ := Options.exists_declines launches
        exact .of_declines (.options parsed declines)

theorem session_files_printer :
    let o : Options := { Options.printer with output? := some (.given "a") }
    ∃ report location, parse ["--hex", "0601", "-o", "a"] = .ok (.run o) ∧
      Reports ["--hex", "0601", "-o", "a"] {} report ∧
      report.Holds {} o 0 #[6, 1] location := by
  intro o
  have parsed : parse ["--hex", "0601", "-o", "a"] = .ok (.run o) := by decide +kernel
  let opened : Environment := { files := { nodes := [(["a"], .file #[])] } }
  have opens : o.openOutput {} = .ok (opened, .file ["a"]) := by cbv
  have launches : o.Launches {} 0 #[6, 1] opened (.file ["a"]) :=
    { loads := rfl, fits := by decide, runs := rfl, opens }
  obtain ⟨last, stopped, -⟩ :=
    Machine.stopsAt_printer (m := o.machine #[6, 1]) rfl Sink.accepts_empty
  have reported := (launches.reports_of_ends parsed (.stops stopped (.inl rfl)) _).mpr rfl
  cases session_files ["--hex", "0601", "-o", "a"] {} with
  | declines _ stops =>
    rw [prepare, parsed] at stops
    exact absurd (launches.prepare_eq.symm.trans stops) (by rintro ⟨⟩)
  | standard parsed' noPath =>
    cases parsed.symm.trans parsed'
    cases noPath
  | device _ _ _ _ found device =>
    rw [FileSystem.node?] at found
    split at found
    · cases found
      rcases device with other | other
      all_goals cases other
    · cases found
  | file parsed' _ launches' _ _ _ holds =>
    cases parsed.symm.trans parsed'
    cases launches.loads.symm.trans launches'.loads
    exact ⟨_, _, parsed, reported, holds _ reported⟩

end RegisterMachine.CommandLine
