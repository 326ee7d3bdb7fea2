import RegisterMachine.Proofs.CommandLine.Decline
import RegisterMachine.Proofs.CommandLine.Switches
import RegisterMachine.Proofs.Listing.Bounds
import RegisterMachine.Proofs.Text.HexBytes

namespace RegisterMachine.CommandLine

def Options.withHex (o : Options) (text : String) : Options := { o with hex? := some (.given text) }

/-- The options with inline bytes that count unless others are given. -/
def Options.orHex (text : String) (o : Options) : Options :=
  { o with hex? := some (o.hex?.getD (.given text)) }

variable {arguments arguments' : List String} {o : Options} {env opened : Environment}
  {bound : Nat} {image padded loaded : Array UInt8} {output : Output} {text text' : String}

theorem Options.commutes_orHex (text : String) : Commutes (fun _ => false) (orHex text) where
  enable _ flag := by cases flag <;> rfl
  hex _ _ _ := rfl
  output _ _ _ := rfl
  maxSteps _ _ _ := rfl
  image _ _ := rfl
  image? _ := rfl

theorem parse_hex (plain : text.startsWith "-" = false) (arguments : List String) :
    parse ("--hex" :: text :: arguments) =
      (parse arguments).map (Request.map (Options.orHex text)) := by
  have spells : Flag.hex.Spells text ["--hex", text] := .apart rfl
  exact spells.parse_eq rfl plain rfl (Options.commutes_orHex text) (unassigned_of_unsettled _)

theorem plain_of_inlineImage (reads : inlineImage text = .ok image) :
    text.startsWith "-" = false := by
  unfold inlineImage at reads
  split at reads
  · rename_i bytes read
    apply plain_of_not_mem
    intro member
    rcases digits_of_readHexBytes read _ member with blank | digit
    · cases blank
    · cases digit
  · cases reads

theorem exists_inlineImage (image : Array UInt8) : ∃ text, inlineImage text = .ok image := by
  have read := readHexBytes_spacedHex image.toList
  exact ⟨spacedHex image.toList, by rw [inlineImage, read]⟩

structure Alike (text text' : String) (image padded : Array UInt8) : Prop where
  reads : inlineImage text = .ok image
  reads' : inlineImage text' = .ok padded
  longer : image.size ≤ padded.size
  fits : padded.size ≤ 4096
  memory : Memory.ofImage padded = Memory.ofImage image

namespace Alike

variable (alike : Alike text text' image padded)

include alike

theorem load_eq (files : FileSystem) :
    (o.withHex text').load files = ((o.withHex text).load files).map fun l => (l.1, padded) := by
  have path : (o.withHex text').imagePath? = (o.withHex text).imagePath? := rfl
  have given (t : String) : (o.withHex t).hex? = some (.given t) := rfl
  have bounds : (o.withHex text').bound = (o.withHex text).bound := rfl
  rw [Options.load, Options.load, path, given, given, bounds]
  cases (o.withHex text).imagePath? with
  | some path => rfl
  | none =>
    simp only [alike.reads, alike.reads']
    cases (o.withHex text).bound <;> rfl

theorem load_eq_error {verdict : Verdict}
    (unloaded : (o.withHex text).load env.files = .error verdict) :
    (o.withHex text').load env.files = .error verdict := by
  rw [alike.load_eq, unloaded]
  rfl

theorem load_eq_ok (loads : (o.withHex text).load env.files = .ok (bound, loaded)) :
    loaded = image ∧ (o.withHex text').load env.files = .ok (bound, padded) := by
  constructor
  · rcases Options.load_eq_ok_iff.mp loads with ⟨-, named⟩
    cases named with
    | inline noPath given reads =>
      cases given
      exact Except.ok.inj (reads.symm.trans alike.reads)
    | path given noHex => cases noHex
  · rw [alike.load_eq, loads]
    rfl

theorem listImage_eq (env : Environment) :
    listImage env { state := { memory := Memory.ofImage padded } } padded.size =
      listImage env { state := { memory := Memory.ofImage image } } image.size := by
  have longer := Int.ofNat_le.mpr alike.longer
  have lists := disassemble_ofImage image (Int.le_refl 0) longer (Int.le_refl _)
  simp only [listImage, alike.memory, lists]

theorem launches (launches : (o.withHex text).Launches env bound loaded opened output) :
    loaded = image ∧ (o.withHex text').Launches env bound padded opened output := by
  rcases alike.load_eq_ok launches.loads with ⟨same, loads⟩
  exact ⟨same, loads, alike.fits, launches.runs, launches.opens⟩

theorem declines {report : Report} (declines : (o.withHex text).Declines env report) :
    (o.withHex text').Declines env report := by
  cases declines with
  | usage unloaded => exact .usage (alike.load_eq_error unloaded)
  | unloadable unloaded => exact .unloadable (alike.load_eq_error unloaded)
  | tooLarge loads large =>
    rcases alike.load_eq_ok loads with ⟨rfl, -⟩
    have small := Nat.le_trans alike.longer alike.fits
    omega
  | listed loads fits lists =>
    rcases alike.load_eq_ok loads with ⟨rfl, loads'⟩
    rw [← alike.listImage_eq env]
    exact .listed loads' alike.fits lists
  | unopened loads fits runs closed =>
    rcases alike.load_eq_ok loads with ⟨-, loads'⟩
    exact .unopened loads' alike.fits runs closed
  | unopenable loads fits runs closed =>
    rcases alike.load_eq_ok loads with ⟨-, loads'⟩
    exact .unopenable loads' alike.fits runs closed

theorem session_eq (parsed : parse arguments = .ok (.run (o.withHex text)))
    (parsed' : parse arguments' = .ok (.run (o.withHex text'))) (fuel : Nat) (env : Environment) :
    session fuel arguments env = session fuel arguments' env := by
  by_cases launched : ∃ bound loaded opened output,
      (o.withHex text).Launches env bound loaded opened output
  · rcases launched with ⟨bound, loaded, opened, output, launches⟩
    rcases alike.launches launches with ⟨rfl, launches'⟩
    have machine : (o.withHex text').machine padded = (o.withHex text).machine loaded := by
      rw [Options.machine, alike.memory]
      rfl
    rw [session_of_prepare parsed launches.prepare_eq,
      session_of_prepare parsed' launches'.prepare_eq, Options.launch, Options.launch, machine]
    rfl
  · have stopped : ∀ bound loaded opened output,
        ¬ (o.withHex text).Launches env bound loaded opened output := by
      intro bound loaded opened output launches
      exact launched ⟨bound, loaded, opened, output, launches⟩
    rcases Options.exists_declines stopped with ⟨report, declines⟩
    rw [session_of_prepare_error parsed declines.prepare_eq,
      session_of_prepare_error parsed' (alike.declines declines).prepare_eq]

theorem session_hex (arguments : List String) (fuel : Nat) (env : Environment) :
    session fuel ("--hex" :: text :: arguments) env =
      session fuel ("--hex" :: text' :: arguments) env := by
  have parsed := parse_hex (plain_of_inlineImage alike.reads) arguments
  have parsed' := parse_hex (plain_of_inlineImage alike.reads') arguments
  cases rest : parse arguments with
  | error e =>
    rw [rest] at parsed parsed'
    exact session_of_parse (parsed.trans parsed'.symm) fuel env
  | ok request =>
    rw [rest] at parsed parsed'
    cases request with
    | help => exact session_of_parse (parsed.trans parsed'.symm) fuel env
    | run o =>
      cases given : o.hex? with
      | none =>
        have first (t : String) : o.orHex t = o.withHex t := by
          rw [Options.orHex, given]
          rfl
        simp only [Except.map, Request.map, first] at parsed parsed'
        exact alike.session_eq parsed parsed' fuel env
      | some hex =>
        -- A later image takes the place of both.
        have last (t : String) : o.orHex t = { o with hex? := some hex } := by
          rw [Options.orHex, given]
          rfl
        simp only [Except.map, Request.map, last] at parsed parsed'
        exact session_of_parse (parsed.trans parsed'.symm) fuel env

end Alike

theorem alike_append_zeros {k : Nat} (fits : image.size + k ≤ 4096)
    (reads : inlineImage text = .ok image)
    (reads' : inlineImage text' = .ok (image ++ Array.replicate k 0)) :
    Alike text text' image (image ++ Array.replicate k 0) where
  reads := reads
  reads' := reads'
  longer := by simp
  fits := by simpa using fits
  memory := Memory.ofImage_append_zeros image k

/-- No session tells an image that is given inline from the same image with zeros after it. -/
structure Unseen (image : Array UInt8) (k : Nat) : Prop where
  written : ∃ text text', inlineImage text = .ok image ∧
    inlineImage text' = .ok (image ++ Array.replicate k 0)
  leading : ∀ text text', inlineImage text = .ok image →
    inlineImage text' = .ok (image ++ Array.replicate k 0) → ∀ arguments fuel env,
      session fuel ("--hex" :: text :: arguments) env =
        session fuel ("--hex" :: text' :: arguments) env
  anywhere : ∀ text text', inlineImage text = .ok image →
    inlineImage text' = .ok (image ++ Array.replicate k 0) → ∀ (o : Options) arguments arguments',
      parse arguments = .ok (.run { o with hex? := some (.given text) }) →
      parse arguments' = .ok (.run { o with hex? := some (.given text') }) →
      ∀ fuel env, session fuel arguments env = session fuel arguments' env

/-- A later end only adds lines to a listing, there is no line past an image that has been loaded,
and zeros after an inline image make no difference to a session. -/
theorem padding_unseen :
    (∀ (bytes : Array UInt8) (start first last : Int), first ≤ last →
      linesOf (disassemble bytes start first) <+: linesOf (disassemble bytes start last)) ∧
    (∀ image : Array UInt8, image.size ≤ 4096 → ∃ s, State.ofImage image = .ok s ∧
      ∀ start stop : Int, 0 ≤ start → image.size ≤ stop →
        disassemble s.memory.toArray start stop = disassemble s.memory.toArray start 4096) ∧
    ∀ (image : Array UInt8) k, image.size + k ≤ 4096 → Unseen image k := by
  refine ⟨?_, ?_, ?_⟩
  · intro bytes start first last later
    exact linesOf_disassemble_extends bytes start later
  · intro image fits
    have arena : (image.size : Int) ≤ 4096 := Int.ofNat_le.mpr fits
    refine ⟨_, if_pos fits, ?_⟩
    intro start stop lower past
    exact disassemble_ofImage image lower past arena
  · intro image k fits
    constructor
    · rcases exists_inlineImage image with ⟨text, reads⟩
      rcases exists_inlineImage (image ++ Array.replicate k 0) with ⟨text', reads'⟩
      exact ⟨text, text', reads, reads'⟩
    · intro text text' reads reads'
      exact (alike_append_zeros fits reads reads').session_hex
    · intro text text' reads reads' o arguments arguments'
      exact (alike_append_zeros fits reads reads').session_eq (o := o)

end RegisterMachine.CommandLine
