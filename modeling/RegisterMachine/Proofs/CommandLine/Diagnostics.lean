import RegisterMachine.Proofs.CommandLine.Decline
import RegisterMachine.Proofs.CommandLine.Refinement
import RegisterMachine.Proofs.CommandLine.Switches
import RegisterMachine.Proofs.Run.Keeping

namespace RegisterMachine.CommandLine

def Options.diagnosed (d : Diagnostics) (o : Options) : Options :=
  { o with trace := d.trace, quiet := d.quiet, debug := d.debug }

def Options.diagnostics (o : Options) : Diagnostics := ⟨o.trace, o.quiet, o.debug⟩

def Report.visible (r : Report) : Verdict × Sink × FileSystem := (r.verdict, r.stdout, r.files)

def printed (lines : List String) : String := String.join (lines.map (· ++ "\n"))

/-- Sessions of the same options with other diagnostics. -/
structure Unobtrusive (arguments : List String) (o : Options) (env : Environment) (fuel : Nat) :
    Prop where
  switched : ∀ d : Diagnostics, parse (d.switches ++ arguments) = .ok (.run (o.enabling d))
  visible : ∀ d arguments', parse arguments' = .ok (.run (o.diagnosed d)) →
    (session fuel arguments' env).map Report.visible =
      (session fuel arguments env).map Report.visible
  debug : o.debug = false →
    ∀ arguments' report report', parse arguments' = .ok (.run { o with debug := true }) →
      session fuel arguments env = some report → session fuel arguments' env = some report' →
      report.stderr = report'.stderr.filter (!isDebugRecord ·) ∧
        ∀ line ∈ report'.stderr, isDebugRecord line = true → ∃ entry, line = debugRecord entry
  quiet : o.quiet = false → ∀ bound image opened output, o.Launches env bound image opened output →
    ∀ arguments' report report' status, parse arguments' = .ok (.run { o with quiet := true }) →
      session fuel arguments env = some report → session fuel arguments' env = some report' →
      report.verdict = .finished status →
      ∃ outcome, (o.machine image).EndsWithin (output.sink opened) bound outcome ∧
        report.stderrText = report'.stderrText ++ s!"Steps: {outcome.machine.steps}\n" ++
          s!"Registers: {outcome.machine.summary.registersText}\n"
  trace : o.trace = false → ∀ bound image opened output, o.Launches env bound image opened output →
    ∀ arguments' report report' status, parse arguments' = .ok (.run { o with trace := true }) →
      session fuel arguments env = some report → session fuel arguments' env = some report' →
      report.verdict = .finished status →
      ∃ outcome before after,
        (Options.machine { o with trace := true } image).EndsWithin (output.sink opened) bound
          outcome ∧
        report.stderr = before ++ after ∧
        (after = if o.quiet then [] else outcome.machine.summary.lines) ∧
        report'.stderrText = printed before ++ (outcome.machine.trace.text ++ "\n") ++ printed after
  early : (∀ bound image opened output, ¬ o.Launches env bound image opened output) →
    ∀ d arguments', parse arguments' = .ok (.run (o.diagnosed d)) →
      session fuel arguments' env = session fuel arguments env

variable {arguments : List String} {o : Options} {env opened : Environment} {bound : Nat}
  {image : Array UInt8} {output : Output}

theorem Report.stderrText_eq (r : Report) : r.stderrText = printed r.stderr := rfl

theorem printed_append (first second : List String) :
    printed (first ++ second) = printed first ++ printed second := by
  rw [printed, List.map_append, String.join_append]
  rfl

theorem printed_line (line : String) : printed [line] = line ++ "\n" := by
  simp only [printed, List.map_cons, List.map_nil, String.join_cons, String.join_nil,
    String.append_empty]

theorem printed_summary (m : Machine) :
    printed m.summary.lines =
      s!"Steps: {m.steps}\n" ++ s!"Registers: {m.summary.registersText}\n" := by
  have steps : m.summary.steps = m.steps := rfl
  simp only [printed, Summary.lines, steps, List.map_cons, List.map_nil, String.join_cons,
    String.join_nil, String.append_assoc, String.append_empty]
  rfl

namespace Options

theorem Launches.diagnosed (launches : o.Launches env bound image opened output)
    (d : Diagnostics) : (o.diagnosed d).Launches env bound image opened output where
  loads := launches.loads
  fits := launches.fits
  runs := launches.runs
  opens := launches.opens

/-- The machine of a session keeps what is shown of all that it could keep. -/
theorem machine_eq_keeping (o : Options) (image : Array UInt8) :
    o.machine image =
      ({ state := { memory := Memory.ofImage image }, tracing := true,
         logging := true } : Machine).keeping o.trace o.debug := by
  rcases o with ⟨_, _, _, _, _, _ | _, _, _ | _⟩ <;> rfl

theorem Declines.diagnosed {report : Report} (declines : o.Declines env report) (d : Diagnostics) :
    (o.diagnosed d).Declines env report := by
  cases declines with
  | usage unloaded => exact .usage unloaded
  | unloadable unloaded => exact .unloadable unloaded
  | tooLarge loads large => exact .tooLarge loads large
  | listed loads fits lists => exact .listed loads fits lists
  | unopened loads fits runs closed => exact .unopened loads fits runs closed
  | unopenable loads fits runs closed => exact .unopenable loads fits runs closed

theorem Declines.isErrorLine {report : Report} (declines : o.Declines env report) :
    ∀ line ∈ report.stderr, isErrorLine line = true := by
  cases declines with
  | tooLarge => exact List.forall_mem_singleton.mpr (isErrorLine_faultLine _)
  | unopened => exact List.forall_mem_singleton.mpr (isErrorLine_faultLine _)
  | _ => exact List.forall_mem_nil _

theorem exists_prepare_error
    (stopped : ∀ bound image opened output, ¬ o.Launches env bound image opened output) :
    ∃ report, (∀ d, (o.diagnosed d).prepare env = .error report) ∧
      ∀ line ∈ report.stderr, isErrorLine line = true := by
  obtain ⟨report, declines⟩ := exists_declines stopped
  exact ⟨report, fun d => (declines.diagnosed d).prepare_eq, declines.isErrorLine⟩

theorem run_diagnosed (o : Options) (d : Diagnostics) (fuel : Nat) :
    ((o.diagnosed d).launch bound image opened output).run fuel =
      (((o.diagnosed ⟨true, false, true⟩).launch bound image opened output).run fuel).map
        (Outcome.keeping d.trace d.debug) := by
  have machine : (o.diagnosed d).machine image =
      ((o.diagnosed ⟨true, false, true⟩).machine image).keeping d.trace d.debug :=
    (o.diagnosed d).machine_eq_keeping image
  by_cases unbounded : bound = 0
  · simp only [Launch.run, launch, Launch.sink, unbounded, ↓reduceIte, machine,
      Machine.run_keeping, Option.map_map]
    rfl
  · simp only [Launch.run, launch, Launch.sink, unbounded, ↓reduceIte, machine,
      Machine.runFor_keeping]

theorem endsWithin_diagnosed (o : Options) (d : Diagnostics) {fuel : Nat} {outcome : Outcome Bool}
    (ran : ((o.diagnosed ⟨true, false, true⟩).launch bound image opened output).run fuel =
      some outcome) :
    ((o.diagnosed d).machine image).EndsWithin (output.sink opened) bound
      (outcome.keeping d.trace d.debug) := by
  have kept : ((o.diagnosed d).launch bound image opened output).run fuel =
      some (outcome.keeping d.trace d.debug) := by
    rw [run_diagnosed, ran, Option.map_some]
  exact (Launch.exists_run_iff _ _).mp ⟨fuel, kept⟩

/-- What a session with some diagnostics reports of a run that could have kept everything. -/
def reportWith (o : Options) (bound : Nat) (image : Array UInt8) (opened : Environment)
    (output : Output) (d : Diagnostics) (outcome : Outcome Bool) : Report :=
  ((o.diagnosed d).launch bound image opened output).conclude (outcome.keeping d.trace d.debug)

variable {d d' : Diagnostics} {outcome : Outcome Bool}

theorem Launches.session_diagnosed (launches : o.Launches env bound image opened output)
    (parsed : parse arguments = .ok (.run (o.diagnosed d))) (fuel : Nat) :
    session fuel arguments env =
      (((o.diagnosed ⟨true, false, true⟩).launch bound image opened output).run fuel).map
        (o.reportWith bound image opened output d) := by
  rw [session_of_prepare parsed (launches.diagnosed d).prepare_eq, run_diagnosed, Option.map_map]
  rfl

theorem Launches.reports_diagnosed (launches : o.Launches env bound image opened output)
    {arguments' : List String} {report report' : Report} {fuel : Nat}
    (parsed : parse arguments = .ok (.run (o.diagnosed d)))
    (parsed' : parse arguments' = .ok (.run (o.diagnosed d')))
    (reported : session fuel arguments env = some report)
    (reported' : session fuel arguments' env = some report') :
    ∃ outcome,
      ((o.diagnosed ⟨true, false, true⟩).launch bound image opened output).run fuel =
        some outcome ∧
      report = o.reportWith bound image opened output d outcome ∧
      report' = o.reportWith bound image opened output d' outcome := by
  rw [launches.session_diagnosed parsed] at reported
  rw [launches.session_diagnosed parsed'] at reported'
  obtain ⟨outcome, ran, rfl⟩ := Option.map_eq_some_iff.mp reported
  rw [ran] at reported'
  cases reported'
  exact ⟨outcome, ran, rfl, rfl⟩

theorem visible_reportWith (o : Options) (d d' : Diagnostics) (outcome : Outcome Bool) :
    (o.reportWith bound image opened output d outcome).visible =
      (o.reportWith bound image opened output d' outcome).visible := by
  rw [reportWith, reportWith, Launch.conclude_eq, Launch.conclude_eq]
  rfl

theorem returns_of_finished {status : Nat}
    (finished : (o.reportWith bound image opened output d outcome).verdict = .finished status) :
    Returns outcome.result = true := by
  rw [reportWith] at finished
  have returns := Launch.returns_of_finished finished
  exact returns

theorem plainLines_diagnosed (o : Options) (d : Diagnostics) (outcome : Outcome Bool) :
    ((o.diagnosed d).launch bound image opened output).plainLines
      (outcome.keeping d.trace d.debug) =
      (o.launch bound image opened output).failureLines outcome ++
        if Returns outcome.result then
          (if d.trace then [outcome.machine.trace.text] else []) ++
            if d.quiet then [] else outcome.machine.summary.lines
        else [] := by
  obtain ⟨_ | _, quiet, debug⟩ := d <;> rfl

theorem logLines_keeping (m : Machine) (trace log : Bool) :
    Launch.logLines (m.keeping trace log) = if log then Launch.logLines m else [] := by
  cases log <;> rfl

theorem stderr_reportWith (o : Options) (d : Diagnostics)
    (returns : Returns outcome.result = true) :
    (o.reportWith bound image opened output d outcome).stderr =
      (if d.debug then Launch.logLines outcome.machine else []) ++
        (o.launch bound image opened output).failureLines outcome ++
        (if d.trace then [outcome.machine.trace.text] else []) ++
        if d.quiet then [] else outcome.machine.summary.lines := by
  have log : Launch.logLines (outcome.keeping d.trace d.debug).machine =
      if d.debug then Launch.logLines outcome.machine else [] := logLines_keeping _ _ _
  rw [reportWith, Launch.stderr_conclude, plainLines_diagnosed, log, if_pos returns]
  simp only [List.append_assoc]

theorem stderr_undebugged (o : Options) (off : d.debug = false) (outcome : Outcome Bool) :
    (o.reportWith bound image opened output d outcome).stderr =
      (o.reportWith bound image opened output { d with debug := true } outcome).stderr.filter
        (!isDebugRecord ·) := by
  have log : Launch.logLines (outcome.keeping d.trace d.debug).machine = [] := by
    rw [off]
    exact logLines_keeping _ _ _
  rw [reportWith, reportWith, Launch.undebugged_conclude, Launch.stderr_conclude, log,
    List.nil_append, plainLines_diagnosed, plainLines_diagnosed]

theorem stderrText_quiet (o : Options) (off : d.quiet = false)
    (returns : Returns outcome.result = true) :
    (o.reportWith bound image opened output d outcome).stderrText =
      (o.reportWith bound image opened output { d with quiet := true } outcome).stderrText ++
        printed outcome.machine.summary.lines := by
  have loud : ¬ d.quiet = true := Bool.eq_false_iff.mp off
  rw [Report.stderrText_eq, Report.stderrText_eq, stderr_reportWith _ _ returns,
    stderr_reportWith _ _ returns, if_neg loud, if_pos rfl, List.append_nil, printed_append]

theorem stderr_traced (o : Options) (off : d.trace = false)
    (returns : Returns outcome.result = true) :
    ∃ before, (o.reportWith bound image opened output d outcome).stderr =
        before ++ (if d.quiet then [] else outcome.machine.summary.lines) ∧
      (o.reportWith bound image opened output { d with trace := true } outcome).stderr =
        before ++ [outcome.machine.trace.text] ++
          if d.quiet then [] else outcome.machine.summary.lines := by
  have untraced : ¬ d.trace = true := Bool.eq_false_iff.mp off
  refine ⟨(if d.debug then Launch.logLines outcome.machine else []) ++
    (o.launch bound image opened output).failureLines outcome, ?_, ?_⟩
  · rw [stderr_reportWith _ _ returns, if_neg untraced, List.append_nil]
  · rw [stderr_reportWith _ _ returns, if_pos rfl]

end Options

theorem undebugged_of_errors {lines : List String}
    (errors : ∀ line ∈ lines, isErrorLine line = true) :
    lines.filter isDebugRecord = [] ∧ lines.filter (!isDebugRecord ·) = lines := by
  have begins : initial? "DEBUG regvm.machine: " = some 'D' := by decide
  have none : lines.filter isDebugRecord = [] :=
    filter_marked_of_marked begins errors (by decide)
  have all : lines.filter (!isDebugRecord ·) = lines := by
    simpa using none
  exact ⟨none, all⟩

/-- Switching a diagnostic on or off, by switches in front of the arguments or in any other way,
changes nothing but its own lines. -/
theorem diagnostics_unobtrusive (parsed : parse arguments = .ok (.run o)) (env : Environment)
    (fuel : Nat) : Unobtrusive arguments o env fuel where
  switched := by
    intro d
    rw [parse_switches, parsed]
    rfl
  visible := by
    intro d arguments' parsed'
    by_cases reached : ∃ bound image opened output, o.Launches env bound image opened output
    · obtain ⟨bound, image, opened, output, launches⟩ := reached
      have own : parse arguments = .ok (.run (o.diagnosed o.diagnostics)) := parsed
      rw [launches.session_diagnosed parsed', launches.session_diagnosed own, Option.map_map,
        Option.map_map]
      congr 1
      funext outcome
      exact o.visible_reportWith d o.diagnostics outcome
    · simp only [not_exists] at reached
      obtain ⟨report, prepared, -⟩ := Options.exists_prepare_error reached
      rw [session_of_prepare_error parsed' (prepared d),
        session_of_prepare_error parsed (prepared o.diagnostics)]
  debug := by
    intro off arguments' report report' parsed' reported reported'
    by_cases reached : ∃ bound image opened output, o.Launches env bound image opened output
    · obtain ⟨bound, image, opened, output, launches⟩ := reached
      have own : parse arguments = .ok (.run (o.diagnosed o.diagnostics)) := parsed
      have debugged : parse arguments' =
          .ok (.run (o.diagnosed { o.diagnostics with debug := true })) := parsed'
      obtain ⟨outcome, -, rfl, rfl⟩ :=
        launches.reports_diagnosed own debugged reported reported'
      refine ⟨o.stderr_undebugged off outcome, ?_⟩
      intro line member debug
      exact Launch.exists_of_isDebugRecord _ _ member debug
    · simp only [not_exists] at reached
      obtain ⟨early, prepared, errors⟩ := Options.exists_prepare_error reached
      rw [session_of_prepare_error parsed (prepared o.diagnostics)] at reported
      rw [session_of_prepare_error parsed' (prepared ⟨o.trace, o.quiet, true⟩)] at reported'
      obtain rfl : early = report := Option.some.inj reported
      obtain rfl : early = report' := Option.some.inj reported'
      obtain ⟨none, all⟩ := undebugged_of_errors errors
      refine ⟨all.symm, ?_⟩
      intro line member debug
      exact absurd debug (List.filter_eq_nil_iff.mp none line member)
  quiet := by
    intro off bound image opened output launches arguments' report report' status parsed' reported
      reported' finished
    have own : parse arguments = .ok (.run (o.diagnosed o.diagnostics)) := parsed
    have quieted : parse arguments' =
        .ok (.run (o.diagnosed { o.diagnostics with quiet := true })) := parsed'
    obtain ⟨outcome, ran, rfl, rfl⟩ := launches.reports_diagnosed own quieted reported reported'
    refine ⟨_, o.endsWithin_diagnosed o.diagnostics ran, ?_⟩
    rw [o.stderrText_quiet off (Options.returns_of_finished finished), printed_summary,
      ← String.append_assoc]
    rfl
  trace := by
    intro off bound image opened output launches arguments' report report' status parsed' reported
      reported' finished
    have own : parse arguments = .ok (.run (o.diagnosed o.diagnostics)) := parsed
    have traced : parse arguments' =
        .ok (.run (o.diagnosed { o.diagnostics with trace := true })) := parsed'
    obtain ⟨outcome, ran, rfl, rfl⟩ := launches.reports_diagnosed own traced reported reported'
    have untraced : o.diagnostics.trace = false := off
    obtain ⟨before, lines, lines'⟩ :=
      o.stderr_traced untraced (Options.returns_of_finished finished)
    refine ⟨_, before, _, o.endsWithin_diagnosed { o.diagnostics with trace := true } ran, lines,
      rfl, ?_⟩
    rw [Report.stderrText_eq, lines', printed_append, printed_append, printed_line]
    rfl
  early := by
    intro stopped d arguments' parsed'
    obtain ⟨report, prepared, -⟩ := Options.exists_prepare_error stopped
    rw [session_of_prepare_error parsed' (prepared d),
      session_of_prepare_error parsed (prepared o.diagnostics)]

theorem diagnostics_unobtrusive_printer :
    ∃ fuel report report', session fuel ["--hex", "0601"] {} = some report ∧
      session fuel ["--trace", "--hex", "0601"] {} = some report' ∧
      report'.visible = report.visible ∧ report.verdict = .finished 1 ∧
      ∃ t before after, report.stderr = before ++ after ∧
        report'.stderrText = printed before ++ (Trace.text t ++ "\n") ++ printed after := by
  let o := Options.printer
  have traced : parse ["--trace", "--hex", "0601"] = .ok (.run { o with trace := true }) := by
    decide +kernel
  obtain ⟨last, stopped, failed⟩ :=
    Machine.stopsAt_printer (m := o.machine #[6, 1]) rfl Sink.accepts_empty
  have launches := Options.launches_printer
  obtain ⟨fuel, reported⟩ :=
    (launches.reports_of_ends parse_printer (.stops stopped (.inl rfl)) _).mpr rfl
  have finished : ((o.launch 0 #[6, 1] {} .standard).conclude last).verdict = .finished 1 := by
    rw [Launch.conclude_eq, failed]
    rfl
  have unobtrusive := diagnostics_unobtrusive parse_printer {} fuel
  have same := unobtrusive.visible ⟨true, false, false⟩ _ traced
  rw [reported, Option.map_some] at same
  obtain ⟨report', reported', visible⟩ := Option.map_eq_some_iff.mp same
  obtain ⟨outcome, before, after, -, lines, -, text⟩ :=
    unobtrusive.trace rfl 0 #[6, 1] {} .standard launches _ _ report' 1 traced reported reported'
      finished
  exact ⟨fuel, _, report', reported, reported', visible, finished, _, before, after, lines, text⟩

end RegisterMachine.CommandLine
