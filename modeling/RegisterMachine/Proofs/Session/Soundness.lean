import RegisterMachine.Proofs.Session.Bookkeeping

namespace RegisterMachine

def Registers.AreWords (r : Registers) : Prop :=
  r.toList.length = 16 ∧ ∀ x ∈ r.toList, 0 ≤ x ∧ x < 4294967296

def Memory.AreBytes (m : Memory) : Prop :=
  m.toList.length = 4096 ∧ ∀ b ∈ m.toList, b.toNat < 256

structure StepRecord.Sound (r : StepRecord) : Prop where
  before : r.before.AreWords
  after : r.after.AreWords
  pointer : r.before.get 0 = r.ip
  inMemory : r.ip < 4096
  fits : r.ip + r.instruction.size ≤ 4096

structure Machine.Sound (m : Machine) : Prop where
  registers : m.state.registers.AreWords
  memory : m.state.memory.AreBytes
  records : ∀ r ∈ m.trace.records, r.Sound

/-- Setting a register from outside. An index of no register is refused and nothing changes; the
fault tells the index, unless that has too many digits. With any other index the register that it
names is changed, and nothing else. -/
structure Machine.SetsRegister (m : Machine) (index value : Int) : Prop where
  refused : ¬ (0 ≤ index ∧ index < 16) → index.natAbs < numeralLimit →
    m.setRegister index value = .error (.fault (.invalidRegister .registerIndex index))
  unwritable : numeralLimit ≤ index.natAbs → m.setRegister index value = .error .numeralTooLong
  unchanged : ¬ (0 ≤ index ∧ index < 16) →
    ∀ sink m' sink', (Event.setRegister index value).Happens m sink m' sink' →
      m' = m ∧ sink' = sink
  set : ∀ i : Fin 16, index = (i.val : Int) →
    ∃ registers, m.setRegister index value = .ok { m with state := { m.state with registers } } ∧
      ∀ j, registers.get j = if j = i then value % 4294967296 else m.state.registers.get j

theorem State.wellFormed_iff (s : State) : s.WellFormed ↔ s.registers.AreWords := by
  constructor
  · intro wf
    refine ⟨Vector.length_toList, ?_⟩
    intro x member
    obtain ⟨i, bound, rfl⟩ := List.getElem_of_mem member
    rw [Vector.length_toList] at bound
    exact wf ⟨i, bound⟩
  · rintro ⟨-, words⟩ i
    exact words _ (Vector.mem_toList_iff.mpr (Vector.getElem_mem i.isLt))

theorem Memory.areBytes (m : Memory) : m.AreBytes :=
  ⟨Vector.length_toList, fun b _ => b.toNat_lt⟩

namespace Machine

theorem sound_record {m : Machine} (wf : m.state.WellFormed) {i : Instruction}
    (pending : m.state.pending = .ok i) (ends : Bool) : (m.record i ends).Sound where
  before := m.state.wellFormed_iff.mp wf
  after := m.state.next.wellFormed_iff.mp wf.next
  pointer := rfl
  inMemory := by
    obtain ⟨-, -, fits⟩ := State.pending_eq_ok_iff.mp pending
    have size := i.size_pos
    change m.state.ip < 4096
    omega
  fits := (State.pending_eq_ok_iff.mp pending).2.2

theorem sound_of_create {image : Image} {tracing : Bool} {limit? : Option Int} {m : Machine}
    (logging : Bool) (created : create image tracing limit? = .ok m) :
    { m with logging }.Sound where
  registers := by
    obtain ⟨bytes, rfl⟩ := eq_of_create created
    exact (State.wellFormed_iff _).mp (State.wellFormed_reset _)
  memory := Memory.areBytes _
  records := by
    obtain ⟨bytes, rfl⟩ := eq_of_create created
    simp

theorem setsRegister (m : Machine) (index value : Int) : m.SetsRegister index value where
  refused := by
    intro outside writable
    rw [setRegister, checkRegister_writable outside writable]
    rfl
  unwritable := by
    intro long
    rw [setRegister, checkRegister_unwritable long]
    rfl
  unchanged := by
    intro outside sink m' sink' happens
    obtain ⟨e, refused⟩ := m.setRegister_refused outside value
    cases happens with
    | setRegister set =>
      rw [refused] at set
      cases set
    | refused => exact ⟨rfl, rfl⟩
  set := by
    rintro i rfl
    refine ⟨_, m.setRegister_eq i value, ?_⟩
    intro j
    exact m.state.get_setRegister i j (toWord value)

end Machine

/-- Not every index of no register is told. -/
theorem Machine.setRegister_long_index :
    ¬ (0 ≤ (numeralLimit : Int) ∧ (numeralLimit : Int) < 16) ∧
      ({} : Machine).setRegister numeralLimit 0 ≠
        .error (.fault (.invalidRegister .registerIndex numeralLimit)) := by
  refine ⟨outside_of_long le_natAbs_numeralLimit, ?_⟩
  rw [setRegister, checkRegister_unwritable le_natAbs_numeralLimit]
  rintro ⟨⟩

theorem Event.Happens.keeps_sound {e : Event} {m m' : Machine} {sink sink' : Sink}
    (happens : e.Happens m sink m' sink') (holds : m.Sound) : m'.Sound := by
  have wf := m.state.wellFormed_iff.mpr holds.registers
  have books := happens.books
  refine ⟨m'.state.wellFormed_iff.mp (books.wellFormed wf), Memory.areBytes _, ?_⟩
  rcases books.trace with ⟨-, same⟩ | ⟨-, i, ends, pending, -, pushed⟩
  · rw [same]
    exact holds.records
  · intro r member
    rw [pushed] at member
    rcases Trace.mem_records_push member with old | rfl
    · exact holds.records r old
    · exact Machine.sound_record wf pending ends

/-- Whatever is done with a machine that has been created, with any sinks and with calls that fail,
it stays sound; and a register is set as its index and value say. -/
theorem History.sound {image : Image} {tracing logging : Bool} {limit? : Option Int}
    {m₀ m : Machine} {sink₀ sink : Sink} {events : List Event}
    (created : Machine.create image tracing limit? = .ok m₀)
    (history : History { m₀ with logging } sink₀ events m sink) :
    m.Sound ∧ ∀ index value, m.SetsRegister index value := by
  have start := Machine.sound_of_create logging created
  have holds : m.Sound :=
    history.course.preserves (fun _ _ _ _ _ _ happens => happens.keeps_sound) start
  exact ⟨holds, m.setsRegister⟩

theorem History.sound_printer :
    let m₀ : Machine := { state := printer, tracing := true, trace := { limit := some 1 } }
    Machine.create (.bytes #[6, 1]) true (some 1) = .ok m₀ ∧
      ∃ events m sink, History { m₀ with logging := true } {} events m sink ∧ events.length = 5 ∧
        m.Sound ∧ ∀ index value, m.SetsRegister index value := by
  intro m₀
  have created : Machine.create (.bytes #[6, 1]) true (some 1) = .ok m₀ := rfl
  obtain ⟨_, _, _, _, -, -, -, history⟩ := exists_of_printer { m₀ with logging := true } rfl
  exact ⟨created, _, _, _, history, rfl, History.sound created history⟩

end RegisterMachine
