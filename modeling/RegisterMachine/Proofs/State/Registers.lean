import RegisterMachine.State

namespace RegisterMachine

instance (s : State) : Decidable s.WellFormed :=
  Nat.decidableForallFin fun i => 0 ≤ s.registers.get i ∧ s.registers.get i < 4294967296

theorem checkRegister_writable {index : Int} (outside : ¬ (0 ≤ index ∧ index < 16))
    (writable : index.natAbs < numeralLimit) (kind : FaultKind) :
    checkRegister index kind = .error (.fault (.invalidRegister kind index)) := by
  rw [checkRegister, dif_neg outside, if_pos (isWritable_iff.mpr writable)]

theorem not_isWritable {index : Int} (long : numeralLimit ≤ index.natAbs) :
    ¬ isWritable index = true := by
  rw [isWritable_iff]
  exact Nat.not_lt.mpr long

theorem outside_of_long {index : Int} (long : numeralLimit ≤ index.natAbs) :
    ¬ (0 ≤ index ∧ index < 16) := by
  intro inside
  exact not_isWritable long (isWritable_of_lt (by omega) (by omega))

theorem checkRegister_unwritable {index : Int} (long : numeralLimit ≤ index.natAbs)
    (kind : FaultKind) : checkRegister index kind = .error .numeralTooLong := by
  rw [checkRegister, dif_neg (outside_of_long long), if_neg (not_isWritable long)]

theorem le_natAbs_numeralLimit : numeralLimit ≤ (numeralLimit : Int).natAbs :=
  Nat.le_of_eq (Int.natAbs_natCast numeralLimit).symm

namespace State

/-- The register that an operand byte names; a byte that names none reads as 0. -/
def operand (s : State) (b : UInt8) : Int :=
  if h : b.toNat < 16 then s.registers.get ⟨b.toNat, h⟩ else 0

def assign (s : State) (b : UInt8) (value : Int) : State :=
  if h : b.toNat < 16 then s.setRegister ⟨b.toNat, h⟩ value else s

theorem memory_assign (s : State) (b : UInt8) (value : Int) : (s.assign b value).memory = s.memory := by
  unfold assign
  split <;> rfl

theorem operand_eq {s s' : State} (same : s.registers = s'.registers) (b : UInt8) :
    s.operand b = s'.operand b := by
  simp only [operand, same]

theorem registers_assign {s s' : State} (same : s.registers = s'.registers) (b : UInt8)
    (value : Int) : (s.assign b value).registers = (s'.assign b value).registers := by
  unfold assign
  split
  · simp only [setRegister, same]
  · exact same

theorem get_setRegister (s : State) (i j : Fin 16) (value : Int) :
    (s.setRegister i value).registers.get j = if j = i then value else s.registers.get j := by
  change (s.registers.set i value)[j.val] = if j = i then value else s.registers[j.val]
  simp only [Vector.getElem_set, Fin.ext_iff, eq_comm]

theorem setIp_eq (s : State) (value : Int) : s.setIp value = s.setRegister 0 (toWord value) := rfl

theorem wellFormed_reset (memory : Memory) : ({ memory } : State).WellFormed := by
  intro i
  have zero : (Vector.replicate 16 (0 : Int)).get i = 0 := Vector.getElem_replicate i.isLt
  rw [zero]
  decide

theorem WellFormed.setRegister {s : State} (wf : s.WellFormed) (i : Fin 16) {value : Int}
    (lower : 0 ≤ value) (upper : value < 4294967296) : (s.setRegister i value).WellFormed := by
  intro j
  rw [get_setRegister]
  split
  · exact ⟨lower, upper⟩
  · exact wf j

theorem WellFormed.setIp {s : State} (wf : s.WellFormed) (value : Int) :
    (s.setIp value).WellFormed :=
  wf.setRegister 0 (toWord_nonneg value) (toWord_lt value)

theorem WellFormed.assign {s : State} (wf : s.WellFormed) (b : UInt8) {value : Int}
    (lower : 0 ≤ value) (upper : value < 4294967296) : (s.assign b value).WellFormed := by
  unfold State.assign
  split
  · exact wf.setRegister _ lower upper
  · exact wf

theorem WellFormed.operand {s : State} (wf : s.WellFormed) (b : UInt8) :
    0 ≤ s.operand b ∧ s.operand b < 4294967296 := by
  unfold State.operand
  split
  · exact wf _
  · omega

theorem WellFormed.ip_nonneg {s : State} (wf : s.WellFormed) : 0 ≤ s.ip := (wf 0).1

end State

end RegisterMachine
