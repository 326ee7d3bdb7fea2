import RegisterMachine.Proofs.CommandLine.Launch
import RegisterMachine.Proofs.Text.Lines
import RegisterMachine.Proofs.Text.Marks

namespace RegisterMachine.CommandLine

def debugRecord (entry : LogEntry) : String := s!"DEBUG regvm.machine: {entry.text}"

def limitWarning (bound : Nat) : String := s!"WARNING regvm.main: step limit of {bound} reached"

def limitLine (bound : Nat) : String := s!"Error: step limit ({bound}) reached"

def runWarnings (bound : Nat) : Except Error Bool → List String
  | .ok false => [limitWarning bound]
  | _ => []

def runErrors (bound : Nat) : Except Error Bool → List String
  | .ok true => []
  | .ok false => [limitLine bound]
  | .error (.fault f) => [faultLine f]
  | .error _ => []

def closeLines (closeError? : Option String) : List String :=
  closeError?.toList.map fun reason => faultLine (.flushFailed reason)

def Returns : Except Error Bool → Bool
  | .ok _ => true
  | .error (.fault _) => true
  | .error _ => false

def runVerdict (closeError? : Option String) : Except Error Bool → Verdict
  | .ok ended => .finished (if ended && closeError?.isNone then 0 else 1)
  | .error (.fault _) => .finished 1
  | .error e => .aborted (.escaped e)

namespace Launch

def closed (l : Launch) (sink : Sink) : Environment × Option String :=
  l.output.close l.environment sink

theorem logLines_eq (m : Machine) : logLines m = m.log.toList.map debugRecord := rfl

/-- The trace and the summary, which are shown only if the session returns a status. -/
def shownLines (o : Options) (outcome : Outcome Bool) : List String :=
  if Returns outcome.result then finalLines o outcome.machine else []

theorem endLines_eq (bound : Nat) (result : Except Error Bool) :
    endLines bound result = runWarnings bound result ++ runErrors bound result := by
  rcases result with e | _ | _
  · cases e <;> rfl
  · rfl
  · rfl

theorem conclude_eq (l : Launch) (outcome : Outcome Bool) :
    l.conclude outcome =
      { verdict := runVerdict (l.closed outcome.sink).2 outcome.result
        stderr := logLines outcome.machine ++ runWarnings l.bound outcome.result ++
          runErrors l.bound outcome.result ++ closeLines (l.closed outcome.sink).2 ++
          shownLines l.options outcome
        stdout := (l.closed outcome.sink).1.stdout
        files := (l.closed outcome.sink).1.files } := by
  obtain ⟨result, m, sink⟩ := outcome
  simp only [conclude, closed, endLines_eq, List.append_assoc]
  rcases l.output.close l.environment sink with ⟨env, closeError?⟩
  cases result with
  | ok ended => cases closeError? <;> rfl
  | error e =>
    cases e with
    | fault f => rfl
    | _ => simp [Environment.report, shownLines, Returns, runVerdict, closeLines]

theorem returns_of_finished {l : Launch} {outcome : Outcome Bool} {status : Nat}
    (finished : (l.conclude outcome).verdict = .finished status) :
    Returns outcome.result = true := by
  rw [conclude_eq] at finished
  obtain ⟨e | ended, m, sink⟩ := outcome
  · cases e with
    | fault f => rfl
    | _ => cases finished
  · rfl

end Launch

def isErrorLine (line : String) : Bool := marked "Error: " line

def isLimitWarning (line : String) : Bool := marked "WARNING regvm.main: step limit of " line

def isDebugRecord (line : String) : Bool := marked "DEBUG regvm.machine: " line

theorem isDebugRecord_debugRecord (entry : LogEntry) :
    isDebugRecord (debugRecord entry) = true := by
  apply marked_append
  decide

theorem isLimitWarning_limitWarning (bound : Nat) : isLimitWarning (limitWarning bound) = true := by
  apply marked_append
  apply marked_append
  decide

theorem isErrorLine_faultLine (f : Fault) : isErrorLine (faultLine f) = true := by
  apply marked_append
  decide

theorem isErrorLine_limitLine (bound : Nat) : isErrorLine (limitLine bound) = true := by
  apply marked_append
  apply marked_append
  decide

theorem initial?_trace (t : Trace) : initial? t.text = none ∨ initial? t.text = some '[' := by
  rw [Trace.text]
  cases t.records with
  | nil => exact .inl rfl
  | cons r records =>
    obtain ⟨rest, bracket⟩ := r.exists_text_eq
    rw [List.map_cons, bracket, String.intercalate_cons_append, initial?_append]
    exact .inr rfl

theorem initial?_finalLines (o : Options) (m : Machine) :
    ∀ line ∈ Launch.finalLines o m, initial? line ∈ [none, some '[', some 'S', some 'R'] := by
  intro line member
  -- A trace without records is an empty line, so it need not begin with a bracket.
  rcases List.mem_append.mp member with traced | shown
  · have text : line = m.trace.text := by
      split at traced
      · exact List.mem_singleton.mp traced
      · cases traced
    rcases initial?_trace m.trace with none | bracket
    · simp [text, none]
    · simp [text, bracket]
  · have summary : line ∈ m.summary.lines := by
      split at shown
      · cases shown
      · exact shown
    have steps : initial? s!"Steps: {m.summary.steps}" = some 'S' :=
      initial?_append_of_some (by decide) _
    have registers : initial? s!"Registers: {m.summary.registersText}" = some 'R' :=
      initial?_append_of_some (by decide) _
    simp only [Summary.lines, List.mem_cons, List.not_mem_nil, or_false] at summary
    rcases summary with rfl | rfl
    · simp only [steps, List.mem_cons, true_or, or_true]
    · simp only [registers, List.mem_cons, true_or, or_true]

namespace Launch

variable (l : Launch) (outcome : Outcome Bool) (bound : Nat) (result : Except Error Bool)

theorem isDebugRecord_logLines (m : Machine) :
    ∀ line ∈ logLines m, isDebugRecord line = true := by
  intro line member
  rw [logLines_eq] at member
  obtain ⟨entry, -, rfl⟩ := List.mem_map.mp member
  exact isDebugRecord_debugRecord entry

theorem isLimitWarning_runWarnings :
    ∀ line ∈ runWarnings bound result, isLimitWarning line = true := by
  intro line member
  rcases result with e | _ | _
  · cases member
  · rw [List.mem_singleton.mp member]
    exact isLimitWarning_limitWarning bound
  · cases member

theorem isErrorLine_runErrors : ∀ line ∈ runErrors bound result, isErrorLine line = true := by
  intro line member
  rcases result with e | _ | _
  · cases e with
    | fault f =>
      rw [List.mem_singleton.mp member]
      exact isErrorLine_faultLine f
    | _ => cases member
  · rw [List.mem_singleton.mp member]
    exact isErrorLine_limitLine bound
  · cases member

theorem isErrorLine_closeLines (closeError? : Option String) :
    ∀ line ∈ closeLines closeError?, isErrorLine line = true := by
  intro line member
  obtain ⟨reason, -, rfl⟩ := List.mem_map.mp member
  exact isErrorLine_faultLine _

theorem initial?_shownLines (o : Options) :
    ∀ line ∈ shownLines o outcome, initial? line ∈ [none, some '[', some 'S', some 'R'] := by
  intro line member
  simp only [shownLines] at member
  split at member
  · exact initial?_finalLines o outcome.machine line member
  · cases member

theorem filter_shownLines {mark : String} {c : Char} (begins : initial? mark = some c)
    (apart : some c ∉ [none, some '[', some 'S', some 'R']) (o : Options) :
    (shownLines o outcome).filter (marked mark) = [] := by
  apply filter_marked_eq_nil begins
  intro line member same
  have start := initial?_shownLines outcome o line member
  rw [same] at start
  exact apart start

theorem errorLines_conclude :
    (l.conclude outcome).stderr.filter isErrorLine =
      runErrors l.bound outcome.result ++ closeLines (l.closed outcome.sink).2 := by
  have begins : initial? "Error: " = some 'E' := by decide
  have log : (logLines outcome.machine).filter isErrorLine = [] :=
    filter_marked_of_marked begins (isDebugRecord_logLines _) (by decide)
  have warnings : (runWarnings l.bound outcome.result).filter isErrorLine = [] :=
    filter_marked_of_marked begins (isLimitWarning_runWarnings _ _) (by decide)
  have shown : (shownLines l.options outcome).filter isErrorLine = [] :=
    filter_shownLines outcome begins (by decide) _
  have errors := List.filter_eq_self.mpr (isErrorLine_runErrors l.bound outcome.result)
  have closing := List.filter_eq_self.mpr (isErrorLine_closeLines (l.closed outcome.sink).2)
  simp only [conclude_eq, List.filter_append, log, warnings, errors, closing, shown,
    List.nil_append, List.append_nil]

def failureLines : List String :=
  runWarnings l.bound outcome.result ++ runErrors l.bound outcome.result ++
    closeLines (l.closed outcome.sink).2

/-- What is on standard error beside the records of the log. -/
def plainLines : List String := l.failureLines outcome ++ shownLines l.options outcome

theorem stderr_conclude :
    (l.conclude outcome).stderr = logLines outcome.machine ++ l.plainLines outcome := by
  simp only [conclude_eq, plainLines, failureLines, List.append_assoc]

theorem filter_plainLines : (l.plainLines outcome).filter isDebugRecord = [] := by
  have begins : initial? "DEBUG regvm.machine: " = some 'D' := by decide
  have warnings : (runWarnings l.bound outcome.result).filter isDebugRecord = [] :=
    filter_marked_of_marked begins (isLimitWarning_runWarnings _ _) (by decide)
  have errors : (runErrors l.bound outcome.result).filter isDebugRecord = [] :=
    filter_marked_of_marked begins (isErrorLine_runErrors _ _) (by decide)
  have closing : (closeLines (l.closed outcome.sink).2).filter isDebugRecord = [] :=
    filter_marked_of_marked begins (isErrorLine_closeLines _) (by decide)
  have shown : (shownLines l.options outcome).filter isDebugRecord = [] :=
    filter_shownLines outcome begins (by decide) _
  simp only [plainLines, failureLines, List.filter_append, warnings, errors, closing, shown,
    List.append_nil]

theorem isDebugRecord_plainLines :
    ∀ line ∈ l.plainLines outcome, isDebugRecord line = false := by
  intro line member
  have unmarked := List.filter_eq_nil_iff.mp (l.filter_plainLines outcome) line member
  simpa using unmarked

theorem undebugged_conclude :
    (l.conclude outcome).stderr.filter (!isDebugRecord ·) = l.plainLines outcome := by
  have log : (logLines outcome.machine).filter (!isDebugRecord ·) = [] := by
    simp [logLines_eq, isDebugRecord_debugRecord]
  have plain : (l.plainLines outcome).filter (!isDebugRecord ·) = l.plainLines outcome := by
    apply List.filter_eq_self.mpr
    intro line member
    simp [l.isDebugRecord_plainLines outcome line member]
  rw [stderr_conclude, List.filter_append, log, plain, List.nil_append]

theorem exists_of_isDebugRecord {line : String} (member : line ∈ (l.conclude outcome).stderr)
    (debug : isDebugRecord line = true) : ∃ entry, line = debugRecord entry := by
  rw [stderr_conclude, List.mem_append] at member
  rcases member with log | plain
  · rw [logLines_eq] at log
    obtain ⟨entry, -, same⟩ := List.mem_map.mp log
    exact ⟨entry, same.symm⟩
  · rw [l.isDebugRecord_plainLines outcome line plain] at debug
    cases debug

end Launch

end RegisterMachine.CommandLine
