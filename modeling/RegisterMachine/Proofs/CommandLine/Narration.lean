import Mathlib.Data.List.Forall2
import RegisterMachine.Proofs.CommandLine.Conclusion
import RegisterMachine.Proofs.Run.Journal

namespace RegisterMachine.CommandLine

def endTexts (steps : Nat) : RunEnd → List String
  | .limited => []
  | .exited => [s!"program exited after {steps} steps"]
  | .failed ip f => [s!"step {steps} at {addressText ip} failed: {f.kind.name}: {f.message}"]

def logRecords (records : List StepRecord) (ending : RunEnd) : List String :=
  (records.map (fun r => s!"step {r.step} at {addressText r.ip}: {r.instruction.text}") ++
    endTexts records.length ending).map ("DEBUG regvm.machine: " ++ ·)

/-- The log and the trace of a report tell of the same steps. -/
structure Report.TellsOf (report : Report) (o : Options) (records : List StepRecord)
    (ending : RunEnd) (m : Machine) : Prop where
  numbered : records.map (·.step) = List.range records.length
  counted : m.steps = records.length
  log : report.stderr.filter isDebugRecord = logRecords records ending
  error : ∀ ip f, ending = .failed ip f →
    (report.stderr.filter isErrorLine).head? = some s!"Error: {f.kind.name}: {f.message}"
  trace : ∃ others text,
    report.stderr = logRecords records ending ++ others ++
      text :: (if o.quiet then [] else m.summary.lines) ∧
    others.filter isDebugRecord = [] ∧
    (linesOf text).length = min records.length 10000 ∧
    List.Forall₂ (fun r line =>
        marked s!"[{r.step}] {addressText r.ip}: {r.instruction.text}" line = true)
      (newest (some 10000) records) (linesOf text)

variable {arguments : List String} {o : Options} {env opened : Environment} {bound : Nat}
  {image : Array UInt8} {output : Output} {records : List StepRecord} {ending : RunEnd}

theorem append_report (start : String) (f : Fault) :
    start ++ f.report = start ++ f.kind.name ++ ": " ++ f.message := by
  have regroup (kind colon message : String) :
      start ++ (kind ++ colon ++ message) = start ++ kind ++ colon ++ message := by
    rw [String.append_assoc, String.append_assoc, String.append_assoc]
  exact regroup _ _ _

theorem text_failed (steps : Nat) (ip : Int) (f : Fault) :
    (LogEntry.failed steps ip f).text =
      s!"step {steps} at {addressText ip} failed: {f.kind.name}: {f.message}" :=
  append_report _ f

theorem map_text_entries (steps : Nat) (ending : RunEnd) :
    (ending.entries steps).map LogEntry.text = endTexts steps ending := by
  cases ending with
  | limited => rfl
  | exited => rfl
  | failed ip f => rw [RunEnd.entries, endTexts, List.map_singleton, text_failed]

theorem map_debugRecord (records : List StepRecord) (ending : RunEnd) :
    (records.map StepRecord.entry ++ ending.entries records.length).map debugRecord =
      logRecords records ending := by
  rw [logRecords, ← map_text_entries, List.map_append, List.map_append, List.map_map, List.map_map,
    List.map_map]
  rfl

theorem marked_heading (r : StepRecord) : marked r.heading r.text = true := by
  have self : marked r.heading r.heading = true :=
    List.isPrefixOf_iff_prefix.mpr (List.prefix_refl _)
  rw [StepRecord.text, String.append_assoc, String.append_assoc]
  exact marked_append self _

theorem faults_of_returns {result : Except Error Bool} (returns : Returns result = true) :
    ∀ e, result = .error e → ∃ f, e = .fault f := by
  rintro e rfl
  cases e with
  | fault f => exact ⟨f, rfl⟩
  | _ => cases returns

namespace Options

theorem logLines_of_runsWithin {m : Machine} {sink : Sink} (debug : o.debug = true)
    (runs : (o.machine image).RunsWithin sink bound records ending m) :
    Launch.logLines m = logRecords records ending := by
  have log := runs.log_eq debug
  have start : (o.machine image).log = #[] := rfl
  have zero : (o.machine image).steps = 0 := rfl
  rw [Launch.logLines_eq, log, start, zero, Nat.zero_add, ← map_debugRecord]
  rfl

theorem records_of_runsWithin {m : Machine} {sink : Sink} (trace : o.trace = true)
    (runs : (o.machine image).RunsWithin sink bound records ending m) :
    m.trace.records = newest (some 10000) records :=
  runs.records_eq (State.wellFormed_reset _) trace

end Options

namespace Launch

variable (l : Launch) {outcome : Outcome Bool}

theorem filter_failureLines (outcome : Outcome Bool) :
    (l.failureLines outcome).filter isDebugRecord = [] := by
  have plain := l.filter_plainLines outcome
  rw [plainLines, List.filter_append] at plain
  exact (List.append_eq_nil_iff.mp plain).1

theorem debugRecords_conclude (outcome : Outcome Bool) :
    (l.conclude outcome).stderr.filter isDebugRecord = logLines outcome.machine := by
  have log := List.filter_eq_self.mpr (isDebugRecord_logLines outcome.machine)
  rw [stderr_conclude, List.filter_append, log, l.filter_plainLines, List.append_nil]

theorem stderr_of_traced (trace : l.options.trace = true)
    (returns : Returns outcome.result = true) :
    (l.conclude outcome).stderr = logLines outcome.machine ++ l.failureLines outcome ++
      outcome.machine.trace.text ::
        (if l.options.quiet then [] else outcome.machine.summary.lines) := by
  rw [stderr_conclude, plainLines, shownLines, if_pos returns, finalLines, if_pos trace,
    List.append_assoc]
  rfl

theorem head?_errorLines {f : Fault} (failed : outcome.result = .error (.fault f)) :
    ((l.conclude outcome).stderr.filter isErrorLine).head? =
      some s!"Error: {f.kind.name}: {f.message}" := by
  rw [errorLines_conclude, failed]
  exact congrArg some (append_report "Error: " f)

end Launch

/-- The log and the trace of a session tell the same story: one record for each step that has
succeeded and one for the end, and one line for each of the newest of these steps. -/
theorem log_and_trace_agree (parsed : parse arguments = .ok (.run o)) (debug : o.debug = true)
    (trace : o.trace = true) (launches : o.Launches env bound image opened output)
    {report : Report} (reported : Reports arguments env report) {status : Nat}
    (finished : report.verdict = .finished status) :
    ∃ records ending m,
      (o.machine image).RunsWithin (output.sink opened) bound records ending m ∧
        report.TellsOf o records ending m := by
  rcases (launches.reports_iff parsed).mp reported with ⟨outcome, ends, rfl⟩
  have returns := Launch.returns_of_finished finished
  rcases ends.exists_runsWithin (faults_of_returns returns) with ⟨records, ending, runs, result⟩
  have log : Launch.logLines outcome.machine = logRecords records ending :=
    Options.logLines_of_runsWithin debug runs
  have traced := Options.records_of_runsWithin trace runs
  have lines : linesOf outcome.machine.trace.text =
      (newest (some 10000) records).map StepRecord.text := by
    rw [Trace.linesOf_text, traced]
  have numbered := runs.numbered (State.wellFormed_reset _)
  have counted := runs.steps_eq
  refine ⟨records, ending, outcome.machine, runs, ?_⟩
  constructor
  · rw [numbered, List.range_eq_range']
    rfl
  · rw [counted]
    exact Nat.zero_add _
  · rw [Launch.debugRecords_conclude, log]
  · rintro ip f rfl
    exact Launch.head?_errorLines _ result
  · have stderr := (o.launch bound image opened output).stderr_of_traced trace returns
    rw [log] at stderr
    refine ⟨_, _, stderr, Launch.filter_failureLines _ _, ?_, ?_⟩
    · rw [lines, List.length_map, length_newest, Nat.min_comm]
    · rw [lines, List.forall₂_map_right_iff, List.forall₂_same]
      intro r _
      exact marked_heading r

theorem log_and_trace_agree_printer :
    let o : Options := { Options.printer with debug := true, trace := true }
    ∃ report, Reports ["--hex", "0601", "--debug", "--trace"] {} report ∧
      report.verdict = .finished 1 ∧
      ∃ records ending m, (o.machine #[6, 1]).RunsWithin {} 0 records ending m ∧
        report.TellsOf o records ending m := by
  intro o
  have parsed : parse ["--hex", "0601", "--debug", "--trace"] = .ok (.run o) := by decide +kernel
  have launches : o.Launches {} 0 #[6, 1] {} .standard :=
    { loads := rfl, fits := by decide, runs := rfl, opens := rfl }
  rcases Machine.stopsAt_printer (m := o.machine #[6, 1]) rfl Sink.accepts_empty with
    ⟨last, stopped, failed⟩
  have reported := (launches.reports_of_ends parsed (.stops stopped (.inl rfl)) _).mpr rfl
  have finished : ((o.launch 0 #[6, 1] {} .standard).conclude last).verdict = .finished 1 := by
    rw [Launch.conclude_eq, failed]
    rfl
  exact ⟨_, reported, finished,
    log_and_trace_agree parsed rfl rfl launches reported finished⟩

end RegisterMachine.CommandLine
