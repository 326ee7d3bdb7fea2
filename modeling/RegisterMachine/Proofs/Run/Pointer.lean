import RegisterMachine.Proofs.Run.Ending
import RegisterMachine.Proofs.Session.Bookkeeping

namespace RegisterMachine

/-- The next step assigns register 0. A jump that is not taken does not, nor does a load that
fails. -/
inductive State.AssignsPointer (s : State) : Prop
  | moveIf {rs rc : UInt8} (pending : s.pending = .ok (.moveIf 0 rs rc))
    (taken : (s.past (.moveIf 0 rs rc)).operand rc ≠ 0) : AssignsPointer s
  | load {rj : UInt8} (pending : s.pending = .ok (.load 0 rj))
    (lower : 0 ≤ (s.past (.load 0 rj)).operand rj)
    (upper : (s.past (.load 0 rj)).operand rj ≤ 4092) : AssignsPointer s
  | loadImm {imm : BitVec 16} (pending : s.pending = .ok (.loadImm 0 imm)) : AssignsPointer s
  | sub {ra rb : UInt8} (pending : s.pending = .ok (.sub 0 ra rb)) : AssignsPointer s

def Event.AssignsPointer : Event → Prop
  | step m _ _ => m.state.AssignsPointer
  | setRegister index _ => index = 0
  | _ => False

/-- Among events that happen one after another there is one that assigns register 0, and it leaves
the pointer with a value. -/
inductive PointerAssigned (m : Machine) (sink : Sink) (events : List Event) (value : Int) : Prop
  | intro {before after : List Event} {e : Event} {m₁ m₂ : Machine} {sink₁ sink₂ : Sink}
    (split : events = before ++ e :: after) (earlier : Course m sink before m₁ sink₁)
    (happens : e.Happens m₁ sink₁ m₂ sink₂) (assigns : e.AssignsPointer) (left : m₂.ip = value) :
    PointerAssigned m sink events value

def codeSize : List Instruction → Nat
  | [] => 0
  | i :: is => i.size + codeSize is

namespace Machine

inductive Proceeds : Machine → List Instruction → Machine → Prop
  | nil {m : Machine} : Proceeds m [] m
  | cons {m m' m'' : Machine} {sink sink' : Sink} {i : Instruction} {ends : Bool}
    {is : List Instruction} (pending : m.state.pending = .ok i)
    (stays : ¬ m.state.AssignsPointer) (stepped : m.step sink = some ⟨.ok ends, m', sink'⟩)
    (rest : Proceeds m' is m'') : Proceeds m (i :: is) m''

/-- What becomes of the pointer of a machine. Without an instruction that assigns it, it grows by
the sizes of the instructions, up to the end of memory, and a run ends. So a run without an end
keeps assigning it; and a pointer past the end of memory has been there from the start, or it is
what such an instruction or the host has assigned. -/
structure PointerLaws (m : Machine) (sink : Sink) : Prop where
  proceeds : ∀ is m', m.Proceeds is m' → is ≠ [] →
    m'.ip = m.ip + codeSize is ∧ m'.ip ≤ 4096 ∧ is.length ≤ 4096 - m.ip
  stops : (∀ n m' sink', m.Continues sink n m' sink' → ¬ m'.state.AssignsPointer) →
    ∃ k o, m.StopsAt sink k o ∧ k ≤ max 1 (4097 - m.ip) ∧ m.run k sink = some o.void
  endless : (∀ k o, ¬ m.StopsAt sink k o) →
    ∀ n, ∃ j m' sink', n ≤ j ∧ m.Continues sink j m' sink' ∧ m'.state.AssignsPointer
  beyond : ∀ events m' sink', History m sink events m' sink' → 4096 < m'.ip →
    m'.ip = m.ip ∨ PointerAssigned m sink events m'.ip

end Machine

theorem length_le_codeSize (is : List Instruction) : is.length ≤ codeSize is := by
  induction is with
  | nil => exact Nat.le_refl 0
  | cons i is ih =>
    have positive := i.size_pos
    simp only [codeSize, List.length_cons]
    omega

namespace State

variable {s : State} {i : Instruction}

theorem ip_assign_of_ne {b : UInt8} (other : b ≠ 0) (s : State) (value : Int) :
    (s.assign b value).ip = s.ip := by
  unfold assign
  split
  · change (s.setRegister _ value).registers.get 0 = s.registers.get 0
    rw [get_setRegister, if_neg]
    intro same
    exact other (UInt8.toNat_inj.mp (congrArg Fin.val same).symm)
  · rfl

theorem not_assignsPointer (pending : s.pending = .ok i)
    (keeps : i.opcode = .store ∨ i.opcode = .exit) : ¬ s.AssignsPointer := by
  intro assigns
  cases assigns with
  | moveIf other | load other | loadImm other | sub other =>
    rw [pending, Except.ok.injEq] at other
    rw [other] at keeps
    rcases keeps with store | exit
    · cases store
    · cases exit

theorem ip_effect (stays : ¬ s.AssignsPointer) (pending : s.pending = .ok i) :
    (i.effect (s.past i)).state.ip = (s.past i).ip := by
  cases i with
  | moveIf rd rs rc =>
    simp only [Instruction.effect]
    split
    · rfl
    · rename_i taken
      apply ip_assign_of_ne
      rintro rfl
      exact stays (.moveIf pending taken)
  | store ri rj =>
    simp only [Instruction.effect]
    split
    · rfl
    · rfl
  | load ri rj =>
    simp only [Instruction.effect]
    split
    · rename_i a inside
      have address := checkSpan_ok inside
      have bounds := a.property
      apply ip_assign_of_ne
      rintro rfl
      exact stays (.load pending (by omega) (by omega))
    · rfl
  | loadImm ri imm =>
    apply ip_assign_of_ne
    rintro rfl
    exact stays (.loadImm pending)
  | sub rd ra rb =>
    apply ip_assign_of_ne
    rintro rfl
    exact stays (.sub pending)
  | out ri => rfl
  | exit => rfl
  | outNumber ri => rfl

theorem ip_next (wf : s.WellFormed) (stays : ¬ s.AssignsPointer) (pending : s.pending = .ok i) :
    s.next.ip = s.ip + i.size := by
  rw [next, pending, ← ip_past wf pending]
  exact ip_effect stays pending

theorem ip_next_cases (wf : s.WellFormed) (stays : ¬ s.AssignsPointer) :
    s.next.ip = s.ip ∨ s.next.ip ≤ 4096 := by
  cases pending : s.pending with
  | error e =>
    left
    rw [next, pending]
  | ok i =>
    right
    rw [ip_next wf stays pending]
    exact (pending_eq_ok_iff.mp pending).2.2

end State

namespace Machine

variable {m m' : Machine} {sink sink' : Sink} {is : List Instruction}

theorem Proceeds.ip_eq (proceeds : m.Proceeds is m') (wf : m.state.WellFormed) :
    m'.ip = m.ip + codeSize is := by
  induction proceeds with
  | nil => exact (Int.add_zero _).symm
  | @cons m m' _ _ _ i _ is pending stays stepped _ ih =>
    have state : m'.state = m.state.next := state_of_step stepped
    have moved : m'.ip = m.ip + i.size := by
      rw [ip, state]
      exact State.ip_next wf stays pending
    rw [ih (state ▸ wf.next), moved]
    simp only [codeSize]
    omega

theorem Proceeds.ip_le (proceeds : m.Proceeds is m') (wf : m.state.WellFormed)
    (some : is ≠ []) : m'.ip ≤ 4096 := by
  induction proceeds with
  | nil => exact absurd rfl some
  | @cons m m' m'' _ _ i _ is pending stays stepped rest ih =>
    have state : m'.state = m.state.next := state_of_step stepped
    by_cases last : is = []
    · subst last
      cases rest with
      | nil =>
        rw [ip, state, State.ip_next wf stays pending]
        exact (State.pending_eq_ok_iff.mp pending).2.2
    · exact ih (state ▸ wf.next) last

theorem Proceeds.length_le (proceeds : m.Proceeds is m') (wf : m.state.WellFormed)
    (some : is ≠ []) : is.length ≤ 4096 - m.ip := by
  have moved := proceeds.ip_eq wf
  have inside := proceeds.ip_le wf some
  have short := length_le_codeSize is
  omega

theorem Continues.wellFormed {n : Nat} (all : m.Continues sink n m' sink')
    (wf : m.state.WellFormed) : m'.state.WellFormed := by
  induction all with
  | zero => exact wf
  | succ stepped _ ih =>
    apply ih
    rw [show _ = _ from state_of_step stepped]
    exact wf.next

theorem Continues.exists_proceeds {n : Nat} (all : m.Continues sink n m' sink')
    (stays : ∀ n m' sink', m.Continues sink n m' sink' → ¬ m'.state.AssignsPointer) :
    ∃ is, m.Proceeds is m' ∧ is.length = n := by
  induction all with
  | zero => exact ⟨[], .nil, rfl⟩
  | succ stepped _ ih =>
    obtain ⟨is, rest, length⟩ := ih fun n m' sink' later => stays _ _ _ (.succ stepped later)
    cases books_of_step stepped with
    | executed pending =>
      exact ⟨_, .cons pending (stays _ _ _ .zero) stepped rest, congrArg (· + 1) length⟩

theorem exists_stopsAt (wf : m.state.WellFormed) (ends : m.EmitsEnd sink)
    (stays : ∀ n m' sink', m.Continues sink n m' sink' → ¬ m'.state.AssignsPointer) :
    ∃ k o, m.StopsAt sink k o ∧ k ≤ max 1 (4097 - m.ip) := by
  apply Classical.byContradiction
  intro none
  obtain ⟨m', sink', all⟩ : ∃ m' sink', m.Continues sink (max 1 (4097 - m.ip)).toNat m' sink' := by
    apply exists_continues_of_lt ends
    intro k o stopped
    apply Nat.lt_of_not_le
    intro early
    exact none ⟨k, o, stopped, by omega⟩
  -- as many steps as that take more than the rest of memory
  obtain ⟨is, proceeds, length⟩ := all.exists_proceeds stays
  have some : is ≠ [] := by
    rintro rfl
    rw [List.length_nil] at length
    omega
  have short := proceeds.length_le wf some
  omega

theorem exists_assignsPointer (wf : m.state.WellFormed) (ends : m.EmitsEnd sink)
    (never : ∀ k o, ¬ m.StopsAt sink k o) (n : Nat) :
    ∃ j m' sink', n ≤ j ∧ m.Continues sink j m' sink' ∧ m'.state.AssignsPointer := by
  -- what is left of the run after n steps has no end either
  obtain ⟨m₁, sink₁, before⟩ := exists_continues ends never n
  have ends₁ : m₁.EmitsEnd sink₁ := fun j m' sink' later => ends _ _ _ (before.append later)
  apply Classical.byContradiction
  intro none
  have stays : ∀ j m' sink', m₁.Continues sink₁ j m' sink' → ¬ m'.state.AssignsPointer := by
    intro j m' sink' later assigns
    exact none ⟨n + j, m', sink', Nat.le_add_right n j, before.append later, assigns⟩
  obtain ⟨k, o, stopped, -⟩ := exists_stopsAt (before.wellFormed wf) ends₁ stays
  exact never _ _ (before.stopsAt stopped)

end Machine

theorem Event.Happens.ip_cases {e : Event} {m m' : Machine} {sink sink' : Sink}
    (happens : e.Happens m sink m' sink') (wf : m.state.WellFormed)
    (stays : ¬ e.AssignsPointer) : m'.ip = m.ip ∨ m'.ip ≤ 4096 := by
  cases happens with
  | step ended =>
    rw [Machine.ip, Machine.state_of_step ended]
    exact State.ip_next_cases wf stays
  | @setRegister index value m' set =>
    left
    obtain ⟨i, rfl, rfl⟩ := Machine.eq_of_setRegister set
    change (m.state.setRegister i (toWord value)).registers.get 0 = _
    rw [State.get_setRegister, if_neg]
    · rfl
    · intro same
      exact stays (congrArg (fun i : Fin 16 => (i.val : Int)) same.symm)
  | refused => exact .inl rfl
  | setTracing => exact .inl rfl
  | exchange => exact .inl rfl

theorem PointerAssigned.cons {e : Event} {m m' : Machine} {sink sink' : Sink}
    {events : List Event} {value : Int} (happens : e.Happens m sink m' sink')
    (later : PointerAssigned m' sink' events value) :
    PointerAssigned m sink (e :: events) value := by
  obtain ⟨split, earlier, happened, assigns, left⟩ := later
  rw [split]
  exact .intro List.cons_append.symm (.cons happens earlier) happened assigns left

theorem Course.ip_cases {m m' : Machine} {sink sink' : Sink} {events : List Event}
    (course : Course m sink events m' sink') (wf : m.state.WellFormed) :
    m'.ip ≤ 4096 ∨ m'.ip = m.ip ∨ PointerAssigned m sink events m'.ip := by
  induction course with
  | nil => exact .inr (.inl rfl)
  | @cons m m₁ m' sink _ _ e events happens _ ih =>
    -- the first event matters only if none of the later ones has assigned the pointer
    rcases ih (happens.books.wellFormed wf) with inside | same | assigned
    · exact .inl inside
    · by_cases assigns : e.AssignsPointer
      · exact .inr (.inr (.intro (List.nil_append _).symm .nil happens assigns same.symm))
      · rw [same]
        rcases happens.ip_cases wf assigns with kept | inside
        · exact .inr (.inl kept)
        · exact .inl inside
    · exact .inr (.inr (assigned.cons happens))

namespace Machine

theorem pointer_laws (m : Machine) (wf : m.state.WellFormed) (sink : Sink)
    (ends : m.EmitsEnd sink) : m.PointerLaws sink where
  proceeds := by
    intro is m' proceeds some
    exact ⟨proceeds.ip_eq wf, proceeds.ip_le wf some, proceeds.length_le wf some⟩
  stops := by
    intro stays
    obtain ⟨k, o, stopped, within⟩ := exists_stopsAt wf ends stays
    refine ⟨k, o, stopped, within, run_eq_some_iff_runFor.mpr ⟨o, ?_, stopped.result_ne, rfl⟩⟩
    exact stopped.runFor_eq (Nat.le_refl k)
  endless := exists_assignsPointer wf ends
  beyond := by
    intro events m' sink' history past
    rcases history.course.ip_cases wf with inside | cases
    · omega
    · exact cases

end Machine

/-- A program that stores the code of an exit right behind its only instruction. -/
def patcher : State :=
  State.assign (State.assign { memory := Memory.ofImage #[2, 1, 2] } 1 3) 2 7

def patched : State := (patcher.past (.store 1 2)).setWordAt ⟨3, by decide⟩ 7

theorem pending_patcher : patcher.pending = .ok (.store 1 2) :=
  State.pending_ofImage [] rfl rfl (by decide)

theorem pending_patched : patched.pending = .ok .exit := by
  have stored : patched.memory = patcher.memory.withWord 3 7 := Memory.setWord_eq _ 3 (by decide) 7
  have code : patched.memory.byteAt 3 = Opcode.exit.code := by
    rw [stored, Memory.byteAt_withWord _ _ _ (by decide)]
    rfl
  exact State.pending_exit rfl (by decide) code

theorem effect_patcher :
    (Instruction.store 1 2).effect (patcher.past (.store 1 2)) = ⟨patched, .succeeds false⟩ := by
  have address : (patcher.past (.store 1 2)).operand 1 = 3 := by decide
  have value : (patcher.past (.store 1 2)).operand 2 = 7 := by decide
  have inside : checkSpan 3 4 = .ok ⟨3, by decide⟩ := rfl
  simp only [Instruction.effect, address, value, inside]
  rw [patched]

namespace Machine

variable {m : Machine}

theorem step_patcher (start : m.state = patcher) :
    m.step {} = some ⟨.ok false, m.settle (.store 1 2) (.ok false) patched, {}⟩ :=
  step_succeeds start pending_patcher effect_patcher {}

theorem step_patched (start : m.state = patched) :
    m.step {} = some ⟨.ok true, m.settle .exit (.ok true) (patched.past .exit), {}⟩ :=
  step_succeeds start pending_patched rfl {}

theorem not_assignsPointer_of_patcher (start : m.state = patcher) {n : Nat} {m' : Machine}
    {sink' : Sink} (all : m.Continues {} n m' sink') : ¬ m'.state.AssignsPointer := by
  cases all with
  | zero => exact start ▸ State.not_assignsPointer pending_patcher (.inl rfl)
  | succ stepped rest =>
    rw [step_patcher start] at stepped
    cases stepped
    cases rest with
    | zero =>
      rw [state_settle]
      exact State.not_assignsPointer pending_patched (.inr rfl)
    | succ stepped _ =>
      rw [step_patched (state_settle _ _ _ _)] at stepped
      cases stepped

theorem proceeds_patcher (start : m.state = patcher) :
    ∃ m', m.Proceeds [.store 1 2, .exit] m' := by
  have first : m.state.pending = .ok (.store 1 2) := start ▸ pending_patcher
  have second : (m.settle (.store 1 2) (.ok false) patched).state.pending = .ok .exit := by
    rw [state_settle]
    exact pending_patched
  have stays₁ := State.not_assignsPointer first (.inl rfl)
  have stays₂ := State.not_assignsPointer second (.inr rfl)
  exact ⟨_, .cons first stays₁ (step_patcher start)
    (.cons second stays₂ (step_patched (state_settle _ _ _ _)) .nil)⟩

/-- The exit stands at no place of the program as it was loaded, and yet ends it. -/
theorem pointer_laws_patcher :
    let m : Machine := { state := patcher }
    m.state.WellFormed ∧ m.EmitsEnd {} ∧
      (∀ n m' sink', m.Continues {} n m' sink' → ¬ m'.state.AssignsPointer) ∧
      m.PointerLaws {} ∧ (∃ m', m.Proceeds [.store 1 2, .exit] m' ∧ m'.ip = 4) ∧
      ∃ k o, m.StopsAt {} k o ∧ (k : Int) ≤ 4097 ∧ m.run k {} = some o.void := by
  intro m
  have start : m.state = patcher := rfl
  have wf : m.state.WellFormed := by decide
  have ends : m.EmitsEnd {} := m.emitsEnd_of_counts ⟨by simp, trivial⟩
  have laws := m.pointer_laws wf {} ends
  have stays : ∀ n m' sink', m.Continues {} n m' sink' → ¬ m'.state.AssignsPointer :=
    fun _ _ _ all => not_assignsPointer_of_patcher start all
  obtain ⟨m', proceeds⟩ := proceeds_patcher start
  obtain ⟨moved, -⟩ := laws.proceeds _ _ proceeds (by simp)
  exact ⟨wf, ends, stays, laws, ⟨m', proceeds, moved⟩, laws.stops stays⟩

end Machine

end RegisterMachine
