import RegisterMachine.Listing
import RegisterMachine.Proofs.Instruction.Format

namespace RegisterMachine

def Opcode.instruction (x y z : UInt8) : Opcode → Instruction
  | .moveIf => .moveIf x y z
  | .store => .store x y
  | .load => .load x y
  | .loadImm => .loadImm x (BitVec.ofNat 16 (y.toNat + 256 * z.toNat))
  | .sub => .sub x y z
  | .out => .out x
  | .exit => .exit
  | .outNumber => .outNumber x

@[simp]
theorem Opcode.opcode_instruction (op : Opcode) (x y z : UInt8) :
    (op.instruction x y z).opcode = op := by
  cases op <;> rfl

theorem Instruction.decode_window (code x y z : UInt8) (rest : List UInt8) :
    decode (code :: x :: y :: z :: rest) =
      match Opcode.ofCode? code with
      | none => .error (.fault (.unknownOpcode code))
      | some op => .ok (op.instruction x y z) := by
  simp only [decode]
  cases Opcode.ofCode? code with
  | none => rfl
  | some op => cases op <;> rfl

theorem four_le_length_fillWindow (bytes : List UInt8) : 4 ≤ (fillWindow bytes).length := by
  simp only [fillWindow, List.length_append, List.length_replicate]
  omega

theorem instructionAt_error {bytes : Array UInt8} {ip : Int} {e : Error}
    (failed : instructionAt bytes ip = .error e) :
    (4096 ≤ ip ∧ e = .fault (.pastEnd ip)) ∨
      ∃ code, ip < 4096 ∧ Opcode.ofCode? code = none ∧ e = .fault (.unknownOpcode code) := by
  unfold instructionAt fetch at failed
  split at failed
  · exact .inl ⟨by assumption, by cases failed; rfl⟩
  · have here : ip < 4096 := by omega
    have long := four_le_length_fillWindow (itemsBetween bytes ip (ip + 4))
    simp only [bind, Except.bind] at failed
    match window : fillWindow (itemsBetween bytes ip (ip + 4)), long with
    | code :: x :: y :: z :: rest, _ =>
      rw [window, Instruction.decode_window] at failed
      cases known : Opcode.ofCode? code with
      | none =>
        rw [known] at failed
        cases failed
        exact .inr ⟨code, here, known, rfl⟩
      | some op =>
        rw [known] at failed
        cases failed

/-- The bytes from an address on; past the end they are zeros. -/
def bytesFrom (bytes : Array UInt8) (a n : Nat) : List UInt8 :=
  (List.range n).map fun k => bytes.getD (a + k) 0

theorem bytesFrom_append (bytes : Array UInt8) (a n k : Nat) :
    bytesFrom bytes a (n + k) = bytesFrom bytes a n ++ bytesFrom bytes (a + n) k := by
  simp only [bytesFrom, List.range_add, List.map_append, List.map_map]
  congr 2
  funext i
  rw [Function.comp_apply, Nat.add_assoc]

theorem take_bytesFrom (bytes : Array UInt8) (a : Nat) {k n : Nat} (within : k ≤ n) :
    (bytesFrom bytes a n).take k = bytesFrom bytes a k := by
  rw [bytesFrom, ← List.map_take, List.take_range, Nat.min_eq_left within, bytesFrom]

theorem Memory.getD_toArray (m : Memory) (a : Nat) : m.toArray.getD a 0 = m.byteAt a := by
  rw [byteAt, Array.getD_eq_getD_getElem?, Vector.getElem?_toArray]

theorem getElem_fillWindow (bytes : Array UInt8) (a k : Nat) (h : k < 4) (bound : k < (fillWindow
    (bytes.extract (min a bytes.size) (min (a + 4) bytes.size)).toList).length) :
    (fillWindow (bytes.extract (min a bytes.size) (min (a + 4) bytes.size)).toList)[k] =
      bytes.getD (a + k) 0 := by
  simp only [fillWindow, List.getElem_append]
  split
  · rename_i inside
    simp at inside
    have first : min a bytes.size = a := by omega
    have low : a + k < bytes.size := by omega
    simp [first, low]
  · rename_i outside
    simp at outside
    have high : ¬ a + k < bytes.size := by omega
    simp [high]

theorem fetch_of_lt (bytes : Array UInt8) {a : Nat} (upper : a < 4096) :
    fetch bytes a = .ok (bytesFrom bytes a 4) := by
  have within : ¬ 4096 ≤ (a : Int) := by omega
  have first : clampedPosition bytes.size a = min a bytes.size := by
    simp [clampedPosition]
  have last : clampedPosition bytes.size (a + 4) = min (a + 4) bytes.size := by
    have lower : 0 ≤ (a : Int) + 4 := by omega
    simp only [clampedPosition, lower, ↓reduceIte]
    omega
  simp only [fetch, within, ↓reduceIte, itemsBetween, first, last, Except.ok.injEq]
  apply List.ext_getElem
  · simp [fillWindow, bytesFrom]
    omega
  · intro k _ bound
    simp only [bytesFrom, List.length_map, List.length_range] at bound
    rw [getElem_fillWindow bytes a k bound]
    simp [bytesFrom]

theorem fetch_eq (m : Memory) {ip : Int} (lower : 0 ≤ ip) (upper : ip < 4096) :
    fetch m.toArray ip =
      .ok [m.byteAt ip.toNat, m.byteAt (ip.toNat + 1), m.byteAt (ip.toNat + 2),
        m.byteAt (ip.toNat + 3)] := by
  rcases Int.eq_ofNat_of_zero_le lower with ⟨a, rfl⟩
  rw [fetch_of_lt m.toArray (by omega)]
  simp only [bytesFrom, m.getD_toArray, Int.toNat_natCast]
  rfl

theorem instructionAt_eq (m : Memory) {ip : Int} (lower : 0 ≤ ip) (upper : ip < 4096) :
    instructionAt m.toArray ip =
      match Opcode.ofCode? (m.byteAt ip.toNat) with
      | none => .error (.fault (.unknownOpcode (m.byteAt ip.toNat)))
      | some op => .ok (op.instruction (m.byteAt (ip.toNat + 1)) (m.byteAt (ip.toNat + 2))
          (m.byteAt (ip.toNat + 3))) := by
  rw [instructionAt, fetch_eq m lower upper]
  exact Instruction.decode_window _ _ _ _ []

theorem instructionAt_of_code (m : Memory) {ip : Int} (lower : 0 ≤ ip) (upper : ip < 4096)
    {op : Opcode} (code : m.byteAt ip.toNat = op.code) :
    instructionAt m.toArray ip =
      .ok (op.instruction (m.byteAt (ip.toNat + 1)) (m.byteAt (ip.toNat + 2))
        (m.byteAt (ip.toNat + 3))) := by
  simp only [instructionAt_eq m lower upper, code, Opcode.ofCode?_code]

theorem instructionAt_past (bytes : Array UInt8) {ip : Int} (past : 4096 ≤ ip) :
    instructionAt bytes ip = .error (.fault (.pastEnd ip)) := by
  simp only [instructionAt, fetch, past, ↓reduceIte]
  rfl

theorem instructionAt_of_lt (bytes : Array UInt8) {a : Nat} (upper : a < 4096) :
    instructionAt bytes a = Instruction.decode (bytesFrom bytes a 4) := by
  rw [instructionAt, fetch_of_lt bytes upper]
  rfl

theorem exists_instructionAt {bytes : Array UInt8} {a : Nat} {op : Opcode} (upper : a < 4096)
    (code : op.code = bytes.getD a 0) : ∃ i, instructionAt bytes a = .ok i := by
  have window : bytesFrom bytes a 4 = op.code :: bytesFrom bytes (a + 1) 3 := by
    rw [code]
    exact bytesFrom_append bytes a 1 3
  have long : op.size ≤ (op.code :: bytesFrom bytes (a + 1) 3).length := by
    rw [← window]
    cases op <;> simp [bytesFrom, Opcode.size]
  rcases Instruction.exists_decode long with ⟨i, -, decoded⟩
  rw [instructionAt_of_lt bytes upper, window]
  exact ⟨i, decoded⟩

theorem lt_of_instructionAt {bytes : Array UInt8} {ip : Int} {i : Instruction}
    (read : instructionAt bytes ip = .ok i) :
    ip < 4096 := by
  apply Int.not_le.mp
  intro past
  rw [instructionAt_past bytes past] at read
  cases read

theorem instructionAt_eq_ok_iff_encode {bytes : Array UInt8} {a : Nat} (upper : a < 4096)
    {i : Instruction} : instructionAt bytes a = .ok i ↔ i.encode = bytesFrom bytes a i.size := by
  rw [instructionAt_of_lt bytes upper, Instruction.decode_eq_ok_iff, List.prefix_iff_eq_take,
    i.length_encode, take_bytesFrom bytes a i.size_le_four]

theorem encode_of_instructionAt {bytes : Array UInt8} {a : Nat} {i : Instruction}
    (read : instructionAt bytes a = .ok i) :
    i.opcode.code = bytes.getD a 0 ∧ i.encode = bytesFrom bytes a i.size := by
  have upper := lt_of_instructionAt read
  have encoded := (instructionAt_eq_ok_iff_encode (by omega)).mp read
  refine ⟨?_, encoded⟩
  have size : i.size = 1 + (i.size - 1) := by
    have positive := i.size_pos
    omega
  rw [i.encode_eq, size, bytesFrom_append] at encoded
  exact (List.cons.inj encoded).1

end RegisterMachine
