import Mathlib.Control.Monad.Basic
import RegisterMachine.CommandLine.Session
import RegisterMachine.Proofs.Run.Ending

namespace RegisterMachine.CommandLine

inductive Options.Names (o : Options) (files : FileSystem) (image : Array UInt8) : Prop
  | inline {text : String} (noPath : o.imagePath? = none) (given : o.hex? = some (.given text))
    (reads : inlineImage text = .ok image)
  | path {path : String} (given : o.imagePath? = some path) (noHex : o.hex? = none)
    (reads : fileImage files path = .ok image)

structure Options.Launches (o : Options) (env : Environment) (bound : Nat) (image : Array UInt8)
    (opened : Environment) (output : Output) : Prop where
  loads : o.load env.files = .ok (bound, image)
  fits : image.size ≤ 4096
  runs : o.disassemble = false
  opens : o.openOutput env = .ok (opened, output)

def Options.machine (o : Options) (image : Array UInt8) : Machine :=
  { state := { memory := Memory.ofImage image }, tracing := o.trace, logging := o.debug }

def Options.launch (o : Options) (bound : Nat) (image : Array UInt8) (opened : Environment)
    (output : Output) : Launch :=
  { options := o, bound, environment := opened, output, machine := o.machine image }

def Reports (arguments : List String) (env : Environment) (report : Report) : Prop :=
  ∃ fuel, session fuel arguments env = some report

variable {arguments : List String} {o : Options} {env opened : Environment} {bound : Nat}
  {image : Array UInt8} {output : Output}

theorem create_bytes (fits : image.size ≤ 4096) (tracing : Bool) :
    Machine.create (.bytes image) tracing =
      .ok { state := { memory := Memory.ofImage image }, tracing } := by
  have loaded : State.ofImage image = .ok { memory := Memory.ofImage image } := if_pos fits
  simp only [Machine.create, Image.toBytes, Except.mapError, bind, Except.bind, loaded]
  rfl

theorem create_bytes_error (large : ¬ image.size ≤ 4096) (tracing : Bool) :
    Machine.create (.bytes image) tracing = .error (.fault (.imageTooLarge image.size)) := by
  have loaded : State.ofImage image = .error (.fault (.imageTooLarge image.size)) := if_neg large
  simp only [Machine.create, Image.toBytes, Except.mapError, bind, Except.bind, loaded]

namespace Options

theorem bound_of_given (given : o.maxSteps = .given bound) : o.bound = .ok bound := by
  have nonneg : ¬ (bound : Int) < 0 := by omega
  simp only [Options.bound, given, nonneg, ↓reduceIte, Int.toNat_natCast]

theorem load_eq_ok_iff {files : FileSystem} :
    o.load files = .ok (bound, image) ↔ o.bound = .ok bound ∧ o.Names files image := by
  constructor
  · intro loaded
    unfold load at loaded
    split at loaded
    · cases loaded
    · cases loaded
    · rename_i hex noPath given
      obtain ⟨n, bounded, loaded⟩ := bind_eq_ok_iff.mp loaded
      cases hex with
      | blank => cases loaded
      | given text =>
        obtain ⟨bytes, reads, loaded⟩ := bind_eq_ok_iff.mp loaded
        cases loaded
        exact ⟨bounded, .inline noPath given reads⟩
    · rename_i path given noHex
      obtain ⟨n, bounded, loaded⟩ := bind_eq_ok_iff.mp loaded
      obtain ⟨bytes, reads, loaded⟩ := bind_eq_ok_iff.mp loaded
      cases loaded
      exact ⟨bounded, .path given noHex reads⟩
  · rintro ⟨bounded, named⟩
    cases named with
    | inline noPath given reads => simp only [load, noPath, given, bounded, reads]; rfl
    | path given noHex reads => simp only [load, given, noHex, bounded, reads]; rfl

theorem eq_of_openOutput (opens : o.openOutput env = .ok (opened, output)) :
    opened = { env with files := opened.files } := by
  unfold openOutput at opens
  split at opens
  · cases opens
    rfl
  · split at opens
    · cases opens
    · split at opens
      · cases opens
        rfl
      · cases opens

theorem Launches.prepare_eq (launches : o.Launches env bound image opened output) :
    o.prepare env = .ok (o.launch bound image opened output) := by
  simp only [prepare, launches.loads, create_bytes launches.fits, launches.runs, launches.opens]
  rfl

end Options

theorem Launch.exists_run_iff (l : Launch) (outcome : Outcome Bool) :
    (∃ fuel, l.run fuel = some outcome) ↔ l.machine.EndsWithin l.sink l.bound outcome := by
  by_cases unbounded : l.bound = 0
  · simp only [Launch.run, unbounded, ↓reduceIte, Machine.endsWithin_zero,
      Option.map_eq_some_iff, Machine.run_eq_some_iff_runFor]
    constructor
    · rintro ⟨fuel, _, ⟨⟨e | _ | _, m, sink⟩, ran, stops, rfl⟩, rfl⟩
      · exact ⟨fuel, ran, stops⟩
      · exact absurd rfl stops
      · exact ⟨fuel, ran, stops⟩
    · rintro ⟨fuel, ran, stops⟩
      refine ⟨fuel, _, ⟨outcome, ran, stops, rfl⟩, ?_⟩
      obtain ⟨e | _ | _, m, sink⟩ := outcome
      · rfl
      · exact absurd rfl stops
      · rfl
  · have positive : 0 < l.bound := Nat.pos_of_ne_zero unbounded
    simp only [Launch.run, unbounded, ↓reduceIte, Machine.endsWithin_of_pos positive, exists_const]

theorem session_of_parse {arguments' : List String} (same : parse arguments = parse arguments')
    (fuel : Nat) (env : Environment) :
    session fuel arguments env = session fuel arguments' env := by
  simp only [session, prepare, same]

theorem session_of_prepare {l : Launch} (parsed : parse arguments = .ok (.run o))
    (prepared : o.prepare env = .ok l) (fuel : Nat) :
    session fuel arguments env = (l.run fuel).map l.conclude := by
  rw [session, prepare, parsed]
  simp only [prepared]

theorem session_of_prepare_error {report : Report} (parsed : parse arguments = .ok (.run o))
    (reported : o.prepare env = .error report) (fuel : Nat) :
    session fuel arguments env = some report := by
  rw [session, prepare, parsed]
  simp only [reported]

/-- A session reports exactly what the end of its run brings about. -/
theorem Options.Launches.reports_iff (launches : o.Launches env bound image opened output)
    (parsed : parse arguments = .ok (.run o)) {report : Report} :
    Reports arguments env report ↔
      ∃ outcome, (o.machine image).EndsWithin (output.sink opened) bound outcome ∧
        (o.launch bound image opened output).conclude outcome = report := by
  have ends := (o.launch bound image opened output).exists_run_iff
  simp only [Reports, session_of_prepare parsed launches.prepare_eq, Option.map_eq_some_iff]
  constructor
  · rintro ⟨fuel, outcome, ran, rfl⟩
    exact ⟨outcome, (ends outcome).mp ⟨fuel, ran⟩, rfl⟩
  · rintro ⟨outcome, ended, rfl⟩
    obtain ⟨fuel, ran⟩ := (ends outcome).mpr ended
    exact ⟨fuel, outcome, ran, rfl⟩

theorem Options.Launches.reports_of_ends (launches : o.Launches env bound image opened output)
    (parsed : parse arguments = .ok (.run o)) {outcome : Outcome Bool}
    (ends : (o.machine image).EndsWithin (output.sink opened) bound outcome) (report : Report) :
    Reports arguments env report ↔
      report = (o.launch bound image opened output).conclude outcome := by
  rw [launches.reports_iff parsed]
  constructor
  · rintro ⟨outcome', ends', rfl⟩
    rw [ends'.unique ends]
  · rintro rfl
    exact ⟨outcome, ends, rfl⟩

def Options.printer : Options := { hex? := some (.given "0601") }

theorem parse_printer : parse ["--hex", "0601"] = .ok (.run .printer) := by decide +kernel

theorem Options.launches_printer : printer.Launches {} 0 #[6, 1] {} .standard :=
  { loads := rfl, fits := by decide, runs := rfl, opens := rfl }

end RegisterMachine.CommandLine
