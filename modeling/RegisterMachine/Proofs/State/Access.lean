import Mathlib.Algebra.Group.Int.Defs
import RegisterMachine.Proofs.State.Words
import RegisterMachine.Proofs.Step.Effect

namespace RegisterMachine

structure State.Stores (s : State) (a value : Int) (s' : State) : Prop where
  registers : s'.registers = s.registers
  length : s'.memory.toList.length = 4096
  beside : ∀ x : Nat, x < a ∨ a + 4 ≤ x → s'.memory.byteAt x = s.memory.byteAt x
  read : s'.readWord a = .ok (value % 4294967296)
  readApart : ∀ b, 4 ≤ (a - b).natAbs → s'.readWord b = s.readWord b
  readBytes : ∀ b, 0 ≤ b → b ≤ 4092 → ∃ old new, s.readWord b = .ok old ∧
    s'.readWord b = .ok new ∧ ∀ k < 4, Memory.byteOf new k =
      if a ≤ b + k ∧ b + k < a + 4 then Memory.byteOf (value % 4294967296) (b + k - a).toNat
      else Memory.byteOf old k
  overwritten : ∀ other, s'.writeWord a other = s.writeWord a other
  commutes : ∀ b other, 0 ≤ b → b ≤ 4092 → 4 ≤ (a - b).natAbs →
    ∃ s₁ s₂, s.writeWord b other = .ok s₁ ∧ s'.writeWord b other = .ok s₂ ∧
      s₁.writeWord a value = .ok s₂

/-- Reading and writing a word at an address. Both refuse the addresses from which a word would not
lie in memory, and then an action that reads or writes leaves all as it was. -/
structure State.WordLaws (s : State) (a value : Int) : Prop where
  readRefused : s.readWord a = .error (.fault (.spanOutside a 4)) ↔ a < 0 ∨ 4092 < a
  writeRefused : s.writeWord a value = .error (.fault (.spanOutside a 4)) ↔ a < 0 ∨ 4092 < a
  stored : 0 ≤ a → a ≤ 4092 → ∃ s', s.writeWord a value = .ok s' ∧ s.Stores a value s'
  restored : 0 ≤ a → a ≤ 4092 → ∃ word, s.readWord a = .ok word ∧ s.writeWord a word = .ok s
  loads : ∀ sink, (Action.loadWord a).start ⟨s, sink⟩ = some (s.readWord a, ⟨s, sink⟩)
  stores : ∀ sink, (Action.storeWord a value).start ⟨s, sink⟩ =
    some (match s.writeWord a value with
      | .ok s' => (.ok (), ⟨s', sink⟩)
      | .error e => (.error e, ⟨s, sink⟩))

namespace Memory

theorem toNat_byteOf (value : Int) (place : Nat) :
    ((byteOf value place).toNat : Int) = value / 256 ^ place % 256 := by
  induction place generalizing value with
  | zero =>
    simp only [byteOf, Nat.toUInt8, UInt8.toNat_ofNat', Int.pow_zero, Int.ediv_one]
    omega
  | succ place ih =>
    rw [byteOf, ih, Int.ediv_ediv_of_nonneg (by decide), Int.pow_succ, Int.mul_comm]

theorem byteOf_eq {x y : Int} {j k : Nat}
    (same : x / 256 ^ j % 256 = y / 256 ^ k % 256) : byteOf x j = byteOf y k := by
  apply UInt8.toNat_inj.mp
  have left := toNat_byteOf x j
  have right := toNat_byteOf y k
  omega

theorem byteOf_emod (value : Int) {k : Nat} (within : k < 4) :
    byteOf (value % 4294967296) k = byteOf value k := by
  apply byteOf_eq
  have cases : k = 0 ∨ k = 1 ∨ k = 2 ∨ k = 3 := by omega
  rcases cases with rfl | rfl | rfl | rfl
  all_goals omega

theorem byteOf_word (m : Memory) (a : Nat) {k : Nat} (within : k < 4) :
    byteOf (m.word a) k = m.byteAt (a + k) := by
  apply UInt8.toNat_inj.mp
  have first := (m.byteAt a).toNat_lt
  have second := (m.byteAt (a + 1)).toNat_lt
  have third := (m.byteAt (a + 2)).toNat_lt
  have fourth := (m.byteAt (a + 3)).toNat_lt
  have byte := toNat_byteOf (m.word a) k
  have cases : k = 0 ∨ k = 1 ∨ k = 2 ∨ k = 3 := by omega
  rcases cases with rfl | rfl | rfl | rfl
  all_goals
    simp only [word, Nat.add_zero] at byte ⊢
    omega

theorem word_withWord (m : Memory) {a : Nat} (inside : a + 4 ≤ 4096) (value : Int) :
    (m.withWord a value).word a = value % 4294967296 := by
  have bytes : ∀ k < 4, (((m.withWord a value).byteAt (a + k)).toNat : Int) =
      value / 256 ^ k % 256 := by
    intro k within
    rw [byteAt_withWord m a value (by omega), if_pos (by omega), Nat.add_sub_cancel_left]
    exact toNat_byteOf value k
  have first := bytes 0 (by decide)
  have second := bytes 1 (by decide)
  have third := bytes 2 (by decide)
  have fourth := bytes 3 (by decide)
  simp only [word, Nat.add_zero] at first ⊢
  omega

theorem byteOf_word_withWord (m : Memory) {a b : Nat} (inside : b + 4 ≤ 4096) (value : Int)
    {k : Nat} (within : k < 4) :
    byteOf ((m.withWord a value).word b) k =
      if a ≤ b + k ∧ b + k < a + 4 then byteOf value (b + k - a) else byteOf (m.word b) k := by
  rw [byteOf_word _ b within, byteOf_word m b within, byteAt_withWord m a value (by omega)]

theorem word_withWord_of_apart (m : Memory) {a b : Nat} (apart : b + 4 ≤ a ∨ a + 4 ≤ b)
    (value : Int) : (m.withWord a value).word b = m.word b := by
  apply word_eq
  intro k within
  exact m.byteAt_withWord_of_outside value (by omega)

theorem ext_byteAt {m m' : Memory} (same : ∀ x < 4096, m.byteAt x = m'.byteAt x) : m = m' := by
  apply Vector.ext
  intro x low
  have byte := same x low
  rwa [byteAt_of_lt _ low, byteAt_of_lt _ low] at byte

theorem withWord_word (m : Memory) (a : Nat) : m.withWord a (m.word a) = m := by
  apply ext_byteAt
  intro x low
  rw [byteAt_withWord _ _ _ low]
  split
  · rename_i inside
    rw [byteOf_word m a (by omega), Nat.add_sub_cancel' inside.1]
  · rfl

theorem withWord_withWord (m : Memory) (a : Nat) (value other : Int) :
    (m.withWord a value).withWord a other = m.withWord a other := by
  apply ext_byteAt
  intro x low
  simp only [byteAt_withWord _ _ _ low]
  by_cases inside : a ≤ x ∧ x < a + 4
  · rw [if_pos inside, if_pos inside]
  · rw [if_neg inside, if_neg inside, if_neg inside]

theorem withWord_comm (m : Memory) {a b : Nat} (apart : b + 4 ≤ a ∨ a + 4 ≤ b)
    (value other : Int) :
    (m.withWord a value).withWord b other = (m.withWord b other).withWord a value := by
  apply ext_byteAt
  intro x low
  simp only [byteAt_withWord _ _ _ low]
  by_cases first : a ≤ x ∧ x < a + 4
  · have second : ¬ (b ≤ x ∧ x < b + 4) := by omega
    rw [if_neg second, if_pos first, if_pos first]
  · rw [if_neg first, if_neg first]

end Memory

namespace State

variable {a b : Int}

theorem readWord_inside (s : State) (lower : 0 ≤ a) (upper : a ≤ 4092) :
    s.readWord a = .ok (s.memory.word a.toNat) := by
  rw [readWord, checkSpan_inside lower upper]
  exact congrArg Except.ok (s.memory.numberOfBytes_wordBytes _ _)

theorem writeWord_inside (s : State) (lower : 0 ≤ a) (upper : a ≤ 4092) (value : Int) :
    s.writeWord a value = .ok { s with memory := s.memory.withWord a.toNat value } := by
  rw [writeWord, checkSpan_inside lower upper]
  exact congrArg (fun memory => Except.ok { s with memory }) (s.memory.setWord_eq _ _ value)

theorem readWord_outside (s : State) (outside : a < 0 ∨ 4092 < a) :
    s.readWord a = .error (.fault (.spanOutside a 4)) := by
  rw [readWord, checkSpan_outside outside]
  rfl

theorem writeWord_outside (s : State) (outside : a < 0 ∨ 4092 < a) (value : Int) :
    s.writeWord a value = .error (.fault (.spanOutside a 4)) := by
  rw [writeWord, checkSpan_outside outside]
  rfl

theorem readWord_withWord (s : State) (lower : 0 ≤ a) (upper : a ≤ 4092) (value : Int)
    (apart : 4 ≤ (a - b).natAbs) :
    readWord { s with memory := s.memory.withWord a.toNat value } b = s.readWord b := by
  by_cases inside : 0 ≤ b ∧ b ≤ 4092
  · rw [readWord_inside _ inside.1 inside.2, readWord_inside _ inside.1 inside.2,
      Memory.word_withWord_of_apart _ (by omega)]
  · rw [readWord_outside _ (by omega), readWord_outside _ (by omega)]

theorem stores_withWord (s : State) (lower : 0 ≤ a) (upper : a ≤ 4092) (value : Int) :
    s.Stores a value { s with memory := s.memory.withWord a.toNat value } where
  registers := rfl
  length := Vector.length_toList
  beside := by
    intro x outside
    exact s.memory.byteAt_withWord_of_outside value (by omega)
  read := by
    rw [readWord_inside _ lower upper, Memory.word_withWord _ (by omega)]
  readApart := fun b apart => s.readWord_withWord lower upper value apart
  readBytes := by
    intro b lower' upper'
    refine ⟨_, _, readWord_inside _ lower' upper', readWord_inside _ lower' upper', ?_⟩
    intro k within
    rw [Memory.byteOf_word_withWord _ (by omega) value within]
    by_cases inside : a ≤ b + k ∧ b + k < a + 4
    · have place : (b + k - a).toNat = b.toNat + k - a.toNat := by omega
      rw [if_pos (by omega), if_pos inside, place, Memory.byteOf_emod value (by omega)]
    · rw [if_neg (by omega), if_neg inside]
  overwritten := by
    intro other
    rw [writeWord_inside _ lower upper, writeWord_inside _ lower upper]
    simp only [Memory.withWord_withWord]
  commutes := by
    intro b other lower' upper' apart
    have second := fun t => writeWord_inside t lower' upper' other
    refine ⟨_, _, second s, second _, ?_⟩
    rw [writeWord_inside _ lower upper]
    simp only [s.memory.withWord_comm (show b.toNat + 4 ≤ a.toNat ∨ a.toNat + 4 ≤ b.toNat by omega)]

theorem word_laws (s : State) (a value : Int) : s.WordLaws a value where
  readRefused := by
    refine ⟨?_, s.readWord_outside⟩
    intro refused
    apply Classical.byContradiction
    intro inside
    rw [readWord_inside s (by omega) (by omega)] at refused
    cases refused
  writeRefused := by
    refine ⟨?_, fun outside => s.writeWord_outside outside value⟩
    intro refused
    apply Classical.byContradiction
    intro inside
    rw [writeWord_inside s (by omega) (by omega)] at refused
    cases refused
  stored := fun lower upper =>
    ⟨_, s.writeWord_inside lower upper value, s.stores_withWord lower upper value⟩
  restored := by
    intro lower upper
    refine ⟨_, s.readWord_inside lower upper, ?_⟩
    rw [s.writeWord_inside lower upper, Memory.withWord_word]
  loads := fun sink => Action.start_loadWord a ⟨s, sink⟩
  stores := by
    intro sink
    rw [Action.start_storeWord, writeWord]
    cases checkSpan a 4 with
    | ok span => rfl
    | error e => rfl

end State

end RegisterMachine
