import RegisterMachine.Image.Direct
import RegisterMachine.Proofs.Instruction.Format
import RegisterMachine.Proofs.Listing.Lines
import RegisterMachine.Proofs.Step.Fetch

namespace RegisterMachine

def sizeAt (bytes : Array UInt8) (a : Nat) : Nat :=
  match Opcode.ofCode? (bytes.getD a 0) with
  | some op => op.size
  | none => 0

def lineAddress (bytes : Array UInt8) (start : Nat) : Nat → Nat
  | 0 => start
  | i + 1 => lineAddress bytes start i + sizeAt bytes (lineAddress bytes start i)

def Unlisted (bytes : Array UInt8) (stop : Int) (a : Nat) : Prop :=
  min (min stop 4096) bytes.size ≤ a ∨ ∀ op : Opcode, op.code ≠ bytes.getD a 0

structure ListingLine.Shows (l : ListingLine) (bytes : Array UInt8) (a : Nat) : Prop where
  address : l.address = a
  encoded : l.instruction.encode = bytesFrom bytes a (sizeAt bytes a)
  decoded : Instruction.decode (bytesFrom bytes a (sizeAt bytes a)) = .ok l.instruction
  text : l.text =
    s!"{addressText a}: {padRight 12 (spacedHex (bytesFrom bytes a (sizeAt bytes a)))} " ++
      l.instruction.text

/-- The lines from `start` on are those of the addresses before the first at which none begins. -/
structure LinesFrom (bytes : Array UInt8) (stop : Int) (start : Nat) (lines : List ListingLine) :
    Prop where
  shows : ∀ i (l : ListingLine), lines[i]? = some l → l.Shows bytes (lineAddress bytes start i)
  listed : ∀ i < lines.length, ¬ Unlisted bytes stop (lineAddress bytes start i)
  unlisted : Unlisted bytes stop (lineAddress bytes start lines.length)
  encoded : lines.flatMap (·.instruction.encode) =
    bytesFrom bytes start (lineAddress bytes start lines.length - start)

/-- The loop of a listing: from an address, with the lines that it adds and with how often its body
is entered. -/
inductive Sweep (bytes : Array UInt8) (stop : Int) : Int → List ListingLine → Nat → Prop
  | done {ip : Int} (past : stop ≤ ip) : Sweep bytes stop ip [] 0
  | breaks {ip : Int} {f : Fault} (before : ip < stop)
    (unread : instructionAt bytes ip = .error (.fault f)) (kind : f.kind = .unknownInstruction) :
    Sweep bytes stop ip [] 1
  | line {ip : Int} {i : Instruction} {lines : List ListingLine} {entries : Nat}
    (before : ip < stop) (read : instructionAt bytes ip = .ok i)
    (rest : Sweep bytes stop (ip + i.size) lines entries) :
    Sweep bytes stop ip (⟨ip, i⟩ :: lines) (entries + 1)

variable {bytes : Array UInt8} {stop ip : Int} {lines : List ListingLine} {entries : Nat}

theorem lineAddress_succ (bytes : Array UInt8) (start i : Nat) :
    lineAddress bytes start (i + 1) = lineAddress bytes (start + sizeAt bytes start) i := by
  induction i with
  | zero => rfl
  | succ i ih => rw [lineAddress, ih, lineAddress]

theorem le_lineAddress (bytes : Array UInt8) (start i : Nat) : start ≤ lineAddress bytes start i := by
  induction i with
  | zero => exact Nat.le_refl _
  | succ i ih => exact Nat.le_trans ih (Nat.le_add_right _ _)

theorem sizeAt_of_code {a : Nat} {op : Opcode} (code : op.code = bytes.getD a 0) :
    sizeAt bytes a = op.size := by
  rw [sizeAt, ← code, Opcode.ofCode?_code]

theorem lt_of_code {a size : Nat} {op : Opcode} (zeros : ∀ x, size ≤ x → bytes.getD x 0 = 0)
    (code : op.code = bytes.getD a 0) : a < size := by
  apply Nat.lt_of_not_le
  intro past
  rw [zeros a past] at code
  cases op <;> cases code

theorem shows_of_instructionAt {a : Nat} {i : Instruction} (read : instructionAt bytes a = .ok i) :
    ListingLine.Shows ⟨a, i⟩ bytes a := by
  rcases encode_of_instructionAt read with ⟨code, encoded⟩
  have size : sizeAt bytes a = i.size := sizeAt_of_code code
  rw [← size] at encoded
  constructor
  · rfl
  · exact encoded
  · rw [← encoded, i.decode_encode]
  · rw [← encoded]
    rfl

theorem kind_of_instructionAt {e : Error} (unread : instructionAt bytes ip = .error e) :
    ∃ f : Fault, e = .fault f ∧ f.kind = .unknownInstruction := by
  rcases instructionAt_error unread with ⟨-, rfl⟩ | ⟨code, -, -, rfl⟩
  · exact ⟨_, rfl, rfl⟩
  · exact ⟨_, rfl, rfl⟩

theorem unlisted_of_error {a : Nat} {e : Error} (unread : instructionAt bytes a = .error e) :
    Unlisted bytes stop a := by
  by_cases upper : a < 4096
  · right
    intro op code
    rcases exists_instructionAt upper code with ⟨i, read⟩
    rw [unread] at read
    cases read
  · left
    omega

theorem not_unlisted {a : Nat} {i : Instruction} (before : a < stop)
    (read : instructionAt bytes a = .ok i) : ¬ Unlisted bytes stop a := by
  have upper := lt_of_instructionAt read
  have code := (encode_of_instructionAt read).1
  have inside : a < bytes.size := lt_of_code (fun _ past => by simp [past]) code
  intro unlisted
  rcases unlisted with past | other
  · omega
  · exact other _ code

theorem exists_sweep (bytes : Array UInt8) (ip stop : Int) :
    ∃ entries, Sweep bytes stop ip (listing bytes ip stop) entries := by
  fun_induction listing bytes ip stop with
  | case1 ip before i read ih =>
    rcases ih with ⟨entries, rest⟩
    exact ⟨_, .line before read rest⟩
  | case2 ip before e unread =>
    rcases kind_of_instructionAt unread with ⟨f, rfl, kind⟩
    exact ⟨_, .breaks before unread kind⟩
  | case3 ip past => exact ⟨_, .done (Int.not_lt.mp past)⟩

namespace Sweep

theorem unique (first : Sweep bytes stop ip lines entries) {lines' : List ListingLine}
    {entries' : Nat} (second : Sweep bytes stop ip lines' entries') :
    lines' = lines ∧ entries' = entries := by
  induction first generalizing lines' entries' with
  | done past =>
    cases second with
    | done => exact ⟨rfl, rfl⟩
    | breaks before => omega
    | line before => omega
  | breaks before unread =>
    cases second with
    | done past => omega
    | breaks => exact ⟨rfl, rfl⟩
    | line _ read =>
      rw [unread] at read
      cases read
  | line before read _ ih =>
    cases second with
    | done past => omega
    | breaks _ unread =>
      rw [read] at unread
      cases unread
    | line _ read' rest =>
      rw [read] at read'
      cases read'
      rcases ih rest with ⟨rfl, rfl⟩
      exact ⟨rfl, rfl⟩

theorem entries_le (sweep : Sweep bytes stop ip lines entries) : entries ≤ lines.length + 1 := by
  induction sweep with
  | done => exact Nat.zero_le _
  | breaks => exact Nat.le_refl _
  | line _ _ _ ih => exact Nat.succ_le_succ ih

theorem length_le (sweep : Sweep bytes stop ip lines entries) :
    (lines.length : Int) ≤ max 0 (min stop 4096 - ip) := by
  induction sweep with
  | done => exact Int.le_max_left _ _
  | breaks => exact Int.le_max_left _ _
  | @line ip i _ _ before read _ ih =>
    have upper := lt_of_instructionAt read
    have positive := i.size_pos
    rw [List.length_cons]
    omega

theorem linesFrom (sweep : Sweep bytes stop ip lines entries) {start : Nat} (begins : ip = start) :
    LinesFrom bytes stop start lines := by
  induction sweep generalizing start with
  | done past =>
    have unlisted : Unlisted bytes stop start := .inl (by omega)
    exact ⟨nofun, nofun, unlisted, by simp [lineAddress, bytesFrom]⟩
  | breaks _ unread =>
    subst begins
    have unlisted : Unlisted bytes stop start := unlisted_of_error unread
    exact ⟨nofun, nofun, unlisted, by simp [lineAddress, bytesFrom]⟩
  | @line ip i lines _ before read _ ih =>
    subst begins
    rcases encode_of_instructionAt read with ⟨code, encoded⟩
    have size : sizeAt bytes start = i.size := sizeAt_of_code code
    rw [← size] at encoded ih
    have rest : LinesFrom bytes stop (start + sizeAt bytes start) lines := ih (by simp)
    constructor
    · intro j l member
      cases j with
      | zero =>
        cases member
        exact shows_of_instructionAt read
      | succ j =>
        rw [lineAddress_succ]
        exact rest.shows j l member
    · intro j within
      cases j with
      | zero => exact not_unlisted before read
      | succ j =>
        rw [lineAddress_succ]
        exact rest.listed j (Nat.lt_of_succ_lt_succ within)
    · rw [List.length_cons, lineAddress_succ]
      exact rest.unlisted
    · have beyond := le_lineAddress bytes (start + sizeAt bytes start) lines.length
      rw [List.flatMap_cons, rest.encoded, encoded, ← bytesFrom_append, List.length_cons,
        lineAddress_succ]
      congr 1
      omega

end Sweep

theorem LinesFrom.inside {start : Nat} (linesFrom : LinesFrom bytes stop start lines) {i : Nat}
    (within : i < lines.length) :
    (lineAddress bytes start i : Int) < min (min stop 4096) bytes.size := by
  apply Int.not_le.mp
  intro past
  exact linesFrom.listed i within (.inl past)

theorem Image.listing_bytes (bytes : Array UInt8) (ip stop : Int) :
    (Image.bytes bytes).listing ip stop = .ok (RegisterMachine.listing bytes ip stop) := by
  fun_induction RegisterMachine.listing bytes ip stop with
  | case1 ip before i read ih =>
    have read' : (Image.bytes bytes).fetch ip >>= Instruction.decode = .ok i := read
    rw [Image.listing, if_pos before, read']
    simp only [ih]
    rfl
  | case2 ip before e unread =>
    rcases kind_of_instructionAt unread with ⟨f, rfl, -⟩
    have unread' : (Image.bytes bytes).fetch ip >>= Instruction.decode = .error (.fault f) := unread
    rw [Image.listing, if_pos before, unread']
  | case3 ip past => rw [Image.listing, if_neg past]

/-- The listing of bytes shows, line by line, the instructions that it comes to before the end; only
the last of them may reach beyond it. The loop ends from whatever address it starts. -/
theorem disassemble_exact (bytes : Array UInt8) (stop : Int) :
    (∀ start : Nat, ∃ lines, linesOf (disassemble bytes start stop) = lines.map ListingLine.text ∧
      LinesFrom bytes stop start lines ∧
      ∀ i, i + 1 < lines.length →
        (lineAddress bytes start (i + 1) : Int) < min (min stop 4096) bytes.size) ∧
    ∀ start : Int, ∃ lines entries,
      linesOf (disassemble bytes start stop) = lines.map ListingLine.text ∧
      (Image.bytes bytes).disassemble start stop = .ok (disassemble bytes start stop) ∧
      (∀ lines' entries', Sweep bytes stop start lines' entries' ↔
        lines' = lines ∧ entries' = entries) ∧
      (lines.length : Int) ≤ max 0 (min stop 4096 - start) ∧ entries ≤ lines.length + 1 := by
  constructor
  · intro start
    rcases exists_sweep bytes start stop with ⟨entries, sweep⟩
    have linesFrom := sweep.linesFrom rfl
    exact ⟨_, linesOf_disassemble bytes start stop, linesFrom, fun _ => linesFrom.inside⟩
  · intro start
    rcases exists_sweep bytes start stop with ⟨entries, sweep⟩
    refine ⟨_, entries, linesOf_disassemble bytes start stop, ?_, ?_, sweep.length_le,
      sweep.entries_le⟩
    · rw [Image.disassemble, Image.listing_bytes]
      rfl
    · intro lines' entries'
      constructor
      · exact sweep.unique
      · rintro ⟨rfl, rfl⟩
        exact sweep

end RegisterMachine
