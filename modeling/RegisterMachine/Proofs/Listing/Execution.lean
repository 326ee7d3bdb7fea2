import RegisterMachine.Proofs.Instruction.Format
import RegisterMachine.Proofs.Listing.Lines
import RegisterMachine.Proofs.Session.Replay

namespace RegisterMachine

def Memory.Holds (m : Memory) (ip : Int) (i : Instruction) : Prop :=
  i.encode = bytesFrom m.toArray ip.toNat i.size

theorem Memory.bytesFrom_withWord (m : Memory) {a b n : Nat} (value : Int)
    (apart : b + 4 ≤ a ∨ a + n ≤ b) :
    bytesFrom (m.withWord b value).toArray a n = bytesFrom m.toArray a n := by
  apply List.map_congr_left
  intro k member
  have within := List.mem_range.mp member
  rw [getD_toArray, getD_toArray]
  exact m.byteAt_withWord_of_outside value (by omega)

namespace StepRecord

def line (r : StepRecord) : ListingLine := ⟨r.ip, r.instruction⟩

def stored? (r : StepRecord) : Option Int :=
  match r.instruction with
  | .store ri _ => some (r.operands.operand ri)
  | _ => none

/-- A step has stored no byte of the instruction that a later record tells of. -/
def Spares (r later : StepRecord) : Prop :=
  ∀ a ∈ r.stored?, a + 4 ≤ later.ip ∨ later.ip + later.instruction.size ≤ a

end StepRecord

namespace Machine

/-- Steps that succeed one after another, each on any sink. -/
inductive Succeeds : Machine → Nat → Machine → Prop
  | zero {m : Machine} : Succeeds m 0 m
  | succ {m m' m'' : Machine} {sink sink' : Sink} {ends : Bool} {n : Nat}
    (stepped : m.step sink = some ⟨.ok ends, m', sink'⟩) (rest : Succeeds m' n m'') :
    Succeeds m (n + 1) m''

inductive Executes : Machine → List StepRecord → Machine → Prop
  | nil {m : Machine} : Executes m [] m
  | cons {m m' m'' : Machine} {sink sink' : Sink} {i : Instruction} {ends : Bool}
    {records : List StepRecord} (pending : m.state.pending = .ok i)
    (stepped : m.step sink = some ⟨.ok ends, m', sink'⟩) (rest : Executes m' records m'') :
    Executes m (m.record i ends :: records) m''

/-- Records of the next steps, whose instructions stand in memory and are shown, line by line, by
its listing from the pointer on: the address, the bytes there and the text. -/
structure Lists (m : Machine) (n : Nat) (records : List StepRecord) : Prop where
  numbered : records.map (·.step) = List.range' m.steps n
  held : ∀ r ∈ records, m.state.memory.Holds r.ip r.instruction
  lines : records.map (fun r =>
      let bytes := bytesFrom m.state.memory.toArray r.ip.toNat r.instruction.size
      s!"{addressText r.ip}: {padRight 12 (spacedHex bytes)} {r.instruction.text}") <+:
    linesOf (disassemble m.state.memory.toArray m.ip 4096)

structure Advances (m : Machine) (r : StepRecord) (m' : Machine) : Prop where
  wellFormed : m'.state.WellFormed
  steps : m'.steps = r.step + 1
  ip : m'.ip = r.nextIp
  memory : m'.state.memory = r.replay m.state.memory
  tracing : m'.tracing = m.tracing
  trace : m.tracing = true → m'.trace = m.trace.push r

variable {m m' : Machine} {sink sink' : Sink} {i : Instruction} {ends : Bool}
  {records : List StepRecord}

theorem Succeeds.exists_executes {n : Nat} (succeeds : m.Succeeds n m') :
    ∃ records, m.Executes records m' ∧ records.length = n := by
  induction succeeds with
  | zero => exact ⟨[], .nil, rfl⟩
  | succ stepped _ ih =>
    obtain ⟨records, rest, length⟩ := ih
    cases books_of_step stepped with
    | executed pending => exact ⟨_, .cons pending stepped rest, congrArg (· + 1) length⟩

theorem advances_of_succeeded (wf : m.state.WellFormed) (pending : m.state.pending = .ok i)
    (stepped : m.step sink = some ⟨.ok ends, m', sink'⟩) : m.Advances (m.record i ends) m' := by
  have memory := replay_record wf pending stepped
  cases books_of_step stepped with
  | executed pending' =>
    obtain rfl := Except.ok.inj (pending.symm.trans pending')
    exact ⟨wf.next, rfl, rfl, memory, rfl, fun tracing => if_pos tracing⟩

theorem exists_ip (wf : m.state.WellFormed) (pending : m.state.pending = .ok i) :
    ∃ a : Nat, a < 4096 ∧ m.state.ip = a := by
  obtain ⟨-, -, fits⟩ := State.pending_eq_ok_iff.mp pending
  have positive := i.size_pos
  obtain ⟨a, ip⟩ := Int.eq_ofNat_of_zero_le wf.ip_nonneg
  exact ⟨a, by omega, ip⟩

theorem holds_of_pending (wf : m.state.WellFormed) (pending : m.state.pending = .ok i) :
    m.state.memory.Holds m.state.ip i := by
  obtain ⟨read, -, -⟩ := State.pending_eq_ok_iff.mp pending
  obtain ⟨a, low, ip⟩ := exists_ip wf pending
  rw [ip] at read ⊢
  exact (instructionAt_eq_ok_iff_encode low).mp read

theorem holds_of_replay (wf : m.state.WellFormed) (pending : m.state.pending = .ok i)
    {later : StepRecord} (lower : 0 ≤ later.ip) (spares : (m.record i ends).Spares later)
    {memory : Memory}
    (holds : ((m.record i ends).replay memory).Holds later.ip later.instruction) :
    memory.Holds later.ip later.instruction := by
  have operand := operand_record wf pending ends
  cases i with
  | store ri rj =>
    have apart := spares _ rfl
    have nonneg := ((wf.past (.store ri rj)).operand ri).1
    rw [← operand] at nonneg
    exact holds.trans (memory.bytesFrom_withWord _ (by omega))
  | _ => exact holds

namespace Executes

theorem numbered (executes : m.Executes records m') (wf : m.state.WellFormed) :
    records.map (·.step) = List.range' m.steps records.length := by
  induction executes with
  | nil => rfl
  | cons pending stepped _ ih =>
    have advances := advances_of_succeeded wf pending stepped
    rw [List.map_cons, ih advances.wellFormed, advances.steps, List.length_cons, List.range'_succ]
    rfl

theorem ip_nonneg (executes : m.Executes records m') (wf : m.state.WellFormed) :
    ∀ r ∈ records, 0 ≤ r.ip := by
  induction executes with
  | nil => exact List.forall_mem_nil _
  | cons pending stepped _ ih =>
    have advances := advances_of_succeeded wf pending stepped
    exact List.forall_mem_cons.mpr ⟨wf.ip_nonneg, ih advances.wellFormed⟩

theorem records_eq (executes : m.Executes records m') (wf : m.state.WellFormed)
    (tracing : m.tracing = true) :
    m'.trace.records = newest m.trace.limit (m.trace.records ++ records) := by
  induction executes with
  | @nil m => rw [List.append_nil, m.trace.newest_records]
  | cons pending stepped _ ih =>
    have advances := advances_of_succeeded wf pending stepped
    rw [ih advances.wellFormed (advances.tracing.trans tracing), advances.trace tracing,
      Trace.limit_push, Trace.records_push, newest_append, List.append_assoc]
    rfl

theorem held (executes : m.Executes records m') (wf : m.state.WellFormed)
    (spares : records.Pairwise StepRecord.Spares) :
    ∀ r ∈ records, m.state.memory.Holds r.ip r.instruction := by
  induction executes with
  | nil => exact List.forall_mem_nil _
  | @cons m m' _ _ _ i ends records pending stepped rest ih =>
    have advances := advances_of_succeeded wf pending stepped
    obtain ⟨spared, spares⟩ := List.pairwise_cons.mp spares
    have here := holds_of_pending wf pending
    refine List.forall_mem_cons.mpr ⟨here, ?_⟩
    intro r member
    have lower := rest.ip_nonneg advances.wellFormed r member
    have later := ih advances.wellFormed spares r member
    rw [advances.memory] at later
    exact holds_of_replay wf pending lower (spared r member) later

theorem prefix_listing (executes : m.Executes records m') (wf : m.state.WellFormed)
    (straight : ∀ r ∈ records.dropLast, r.jumps = false) {memory : Memory}
    (held : ∀ r ∈ records, memory.Holds r.ip r.instruction) :
    records.map StepRecord.line <+: listing memory.toArray m.ip 4096 := by
  induction executes with
  | nil => exact List.nil_prefix
  | @cons m m' _ _ _ i ends records pending stepped _ ih =>
    have advances := advances_of_succeeded wf pending stepped
    obtain ⟨here, held⟩ := List.forall_mem_cons.mp held
    have here : memory.Holds m.state.ip i := here
    obtain ⟨a, low, ip⟩ := exists_ip wf pending
    have read : instructionAt memory.toArray m.state.ip = .ok i := by
      rw [ip] at here ⊢
      exact (instructionAt_eq_ok_iff_encode low).mpr here
    have before : m.ip < 4096 := by
      change m.state.ip < 4096
      omega
    rw [listing_of_instructionAt before read]
    apply (List.prefix_cons_inj _).mpr
    cases records with
    | nil => exact List.nil_prefix
    | cons r records =>
      -- Another step follows, so this one has not jumped.
      rw [List.dropLast_cons_cons] at straight
      obtain ⟨stays, straight⟩ := List.forall_mem_cons.mp straight
      have next : m'.ip = m.ip + i.size := by
        rw [advances.ip]
        exact of_not_not (of_decide_eq_false stays)
      have rest := ih advances.wellFormed straight held
      rwa [next] at rest

end Executes

theorem newest_of_room {α : Type} {limit : Option Nat} {old new : List α}
    (room : ∀ l, limit = some l → new.length ≤ l) :
    newest (some new.length) (newest limit (old ++ new)) = new := by
  have enough : new.length ≤ (newest limit (old ++ new)).length := by
    rw [length_newest, List.length_append]
    cases limit with
    | none => exact Nat.le_add_left _ _
    | some l => exact Nat.le_min.mpr ⟨room l rfl, Nat.le_add_left _ _⟩
  have last : new <:+ newest limit (old ++ new) :=
    List.suffix_of_suffix_length_le (List.suffix_append _ _) (newest_suffix _ _) enough
  exact (List.suffix_iff_eq_drop.mp last).symm

/-- Along a straight line of steps, on which no store reaches an instruction that is still to come,
the listing of the memory at the start shows what the newest records tell of. -/
theorem Succeeds.lists {n : Nat} (succeeds : m.Succeeds n m') (wf : m.state.WellFormed)
    (tracing : m.tracing = true) (room : ∀ limit, m.trace.limit = some limit → n ≤ limit)
    (straight : ∀ r ∈ (newest (some n) m'.trace.records).dropLast, r.jumps = false)
    (spares : (newest (some n) m'.trace.records).Pairwise StepRecord.Spares) :
    m.Lists n (newest (some n) m'.trace.records) := by
  obtain ⟨records, executes, rfl⟩ := succeeds.exists_executes
  have trace : newest (some records.length) m'.trace.records = records := by
    rw [executes.records_eq wf tracing, newest_of_room room]
  rw [trace] at straight spares ⊢
  have held := executes.held wf spares
  refine ⟨executes.numbered wf, held, ?_⟩
  have lines := (executes.prefix_listing wf straight held).map ListingLine.text
  have shown : records.map (ListingLine.text ∘ StepRecord.line) = records.map fun r =>
      let bytes := bytesFrom m.state.memory.toArray r.ip.toNat r.instruction.size
      s!"{addressText r.ip}: {padRight 12 (spacedHex bytes)} {r.instruction.text}" := by
    apply List.map_congr_left
    intro r member
    have encoded : r.instruction.encode = _ := held r member
    simp only [← encoded]
    rfl
  rw [List.map_map, shown] at lines
  rwa [linesOf_disassemble]

/-- A program that stores its pointer at the address in register 1, and ends. -/
def keeper : State := State.assign { memory := Memory.ofImage #[2, 1, 0, 7] } 1 100

theorem pending_keeper : keeper.pending = .ok (.store 1 0) :=
  State.pending_ofImage [7] rfl rfl (by decide)

def kept : State := (keeper.past (.store 1 0)).setWordAt ⟨100, by decide⟩ 3

theorem pending_kept : kept.pending = .ok .exit := by
  have stored : kept.memory = keeper.memory.withWord 100 3 := Memory.setWord_eq _ 100 (by decide) 3
  have code : kept.memory.byteAt 3 = Opcode.exit.code := by
    rw [stored, Memory.byteAt_withWord_of_outside _ _ (by decide)]
    exact Memory.byteAt_ofImage _ (by decide)
  exact State.pending_exit rfl (by decide) code

theorem effect_keeper :
    (Instruction.store 1 0).effect (keeper.past (.store 1 0)) = ⟨kept, .succeeds false⟩ := by
  have address : (keeper.past (.store 1 0)).operand 1 = 100 := by decide
  have value : (keeper.past (.store 1 0)).operand 0 = 3 := by decide
  have inside : checkSpan 100 4 = .ok ⟨100, by decide⟩ := rfl
  simp only [Instruction.effect, address, value, inside]
  rfl

theorem step_keeper {m : Machine} (start : m.state = keeper) :
    m.step {} = some ⟨.ok false, m.settle (.store 1 0) (.ok false) kept, {}⟩ :=
  step_succeeds start pending_keeper effect_keeper {}

theorem step_kept {m : Machine} (start : m.state = kept) :
    m.step {} = some ⟨.ok true, m.settle .exit (.ok true) (kept.past .exit), {}⟩ :=
  step_succeeds start pending_kept rfl {}

theorem Succeeds.lists_keeper :
    let m : Machine := { state := keeper, tracing := true, trace := { limit := some 2 } }
    m.state.WellFormed ∧ ∃ m', m.Succeeds 2 m' ∧ m.Lists 2 (newest (some 2) m'.trace.records) := by
  intro m
  let m₁ := m.settle (.store 1 0) (.ok false) kept
  let m₂ := m₁.settle .exit (.ok true) (kept.past .exit)
  let r₁ : StepRecord :=
    { step := 0, ip := 0, instruction := .store 1 0, before := keeper.registers
      after := kept.registers, ends := false }
  let r₂ : StepRecord :=
    { step := 1, ip := 3, instruction := .exit, before := kept.registers
      after := (kept.past .exit).registers, ends := true }
  have wf : m.state.WellFormed := by decide
  have succeeds : m.Succeeds 2 m₂ := .succ (step_keeper rfl) (.succ (step_kept rfl) .zero)
  have records : newest (some 2) m₂.trace.records = [r₁, r₂] := rfl
  have straight : ∀ r ∈ (newest (some 2) m₂.trace.records).dropLast, r.jumps = false := by
    have stays : r₁.jumps = false := by decide
    rw [records]
    exact List.forall_mem_singleton.mpr stays
  have spares : (newest (some 2) m₂.trace.records).Pairwise StepRecord.Spares := by
    have spared : r₁.Spares r₂ := by
      rintro _ ⟨⟩
      decide
    rw [records]
    exact List.pairwise_pair.mpr spared
  exact ⟨wf, m₂, succeeds, succeeds.lists wf rfl (by simp [m]) straight spares⟩

end Machine

end RegisterMachine
