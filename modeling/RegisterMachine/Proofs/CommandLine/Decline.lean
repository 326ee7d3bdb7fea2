import RegisterMachine.Proofs.CommandLine.Launch

namespace RegisterMachine.CommandLine

/-- The ways in which options do not come to a run, in the order of the checks. -/
inductive Options.Declines (o : Options) (env : Environment) : Report → Prop
  | usage {e : UsageError} (unloaded : o.load env.files = .error (.usage e)) :
    Declines o env (env.report (.usage e))
  | unloadable {a : Abort} (unloaded : o.load env.files = .error (.aborted a)) :
    Declines o env (env.report (.aborted a))
  | tooLarge {bound : Nat} {image : Array UInt8} (loads : o.load env.files = .ok (bound, image))
    (large : 4096 < image.size) :
    Declines o env (env.report (.finished 1) [faultLine (.imageTooLarge image.size)])
  | listed {bound : Nat} {image : Array UInt8} (loads : o.load env.files = .ok (bound, image))
    (fits : image.size ≤ 4096) (lists : o.disassemble = true) :
    Declines o env (listImage env { state := { memory := Memory.ofImage image } } image.size)
  | unopened {bound : Nat} {image : Array UInt8} {f : Fault}
    (loads : o.load env.files = .ok (bound, image)) (fits : image.size ≤ 4096)
    (runs : o.disassemble = false) (closed : o.openOutput env = .error (.inr f)) :
    Declines o env (env.report (.finished 1) [faultLine f])
  | unopenable {bound : Nat} {image : Array UInt8} {a : Abort}
    (loads : o.load env.files = .ok (bound, image)) (fits : image.size ≤ 4096)
    (runs : o.disassemble = false) (closed : o.openOutput env = .error (.inl a)) :
    Declines o env (env.report (.aborted a))

variable {o : Options} {env : Environment} {report : Report}

def Verdict.Refuses : Verdict → Prop
  | usage _ => True
  | aborted _ => True
  | _ => False

theorem refuses_of_inlineImage {text : String} {verdict : Verdict}
    (failed : inlineImage text = .error verdict) : verdict.Refuses := by
  unfold inlineImage at failed
  split at failed
  · cases failed
  · cases failed
    trivial

theorem refuses_of_fileImage {files : FileSystem} {path : String} {verdict : Verdict}
    (failed : fileImage files path = .error verdict) : verdict.Refuses := by
  unfold fileImage at failed
  split at failed
  · cases failed
    trivial
  · split at failed
    · cases failed
      trivial
    · cases failed
      trivial
    · split at failed
      · cases failed
      · cases failed
        trivial

theorem Options.refuses_of_bound {verdict : Verdict} (failed : o.bound = .error verdict) :
    verdict.Refuses := by
  unfold bound at failed
  split at failed
  · cases failed
    trivial
  · split at failed
    · cases failed
      trivial
    · cases failed

theorem Options.refuses_of_load {files : FileSystem} {verdict : Verdict}
    (failed : o.load files = .error verdict) : verdict.Refuses := by
  unfold load at failed
  split at failed
  · cases failed
    trivial
  · cases failed
    trivial
  · rename_i hex noPath given
    rcases bind_eq_error_iff.mp failed with unbounded | ⟨bound, -, failed⟩
    · exact refuses_of_bound unbounded
    · cases hex with
      | blank =>
        cases failed
        trivial
      | given text =>
        rcases bind_eq_error_iff.mp failed with unread | ⟨_, -, failed⟩
        · exact refuses_of_inlineImage unread
        · cases failed
  · rcases bind_eq_error_iff.mp failed with unbounded | ⟨bound, -, failed⟩
    · exact refuses_of_bound unbounded
    · rcases bind_eq_error_iff.mp failed with unread | ⟨_, -, failed⟩
      · exact refuses_of_fileImage unread
      · cases failed

theorem Options.exists_declines
    (stopped : ∀ bound image opened output, ¬ o.Launches env bound image opened output) :
    ∃ report, o.Declines env report := by
  cases loads : o.load env.files with
  | error verdict =>
    have refuses := refuses_of_load loads
    cases verdict with
    | usage e => exact ⟨_, .usage loads⟩
    | aborted a => exact ⟨_, .unloadable loads⟩
    | _ => cases refuses
  | ok loaded =>
    obtain ⟨bound, image⟩ := loaded
    by_cases fits : image.size ≤ 4096
    · cases lists : o.disassemble with
      | true => exact ⟨_, .listed loads fits lists⟩
      | false =>
        cases opens : o.openOutput env with
        | ok opened =>
          exact absurd ⟨loads, fits, lists, opens⟩ (stopped bound image opened.1 opened.2)
        | error e =>
          cases e with
          | inl a => exact ⟨_, .unopenable loads fits lists opens⟩
          | inr f => exact ⟨_, .unopened loads fits lists opens⟩
    · exact ⟨_, .tooLarge loads (Nat.lt_of_not_le fits)⟩

theorem Options.Declines.prepare_eq (declines : o.Declines env report) :
    o.prepare env = .error report := by
  cases declines with
  | usage unloaded => simp only [prepare, unloaded]
  | unloadable unloaded => simp only [prepare, unloaded]
  | tooLarge loads large =>
    simp only [prepare, loads, create_bytes_error (Nat.not_le.mpr large)]
  | listed loads fits lists =>
    simp only [prepare, loads, create_bytes fits, lists, ↓reduceIte]
    rfl
  | unopened loads fits runs closed =>
    simp only [prepare, loads, create_bytes fits, runs, closed]
    rfl
  | unopenable loads fits runs closed =>
    simp only [prepare, loads, create_bytes fits, runs, closed]
    rfl

end RegisterMachine.CommandLine
