import RegisterMachine.State

namespace RegisterMachine

namespace Memory

def byteAt (m : Memory) (a : Nat) : UInt8 := m[a]?.getD 0

def word (m : Memory) (a : Nat) : Int :=
  (m.byteAt a).toNat + 256 * (m.byteAt (a + 1)).toNat + 65536 * (m.byteAt (a + 2)).toNat +
    16777216 * (m.byteAt (a + 3)).toNat

def byteOf (value : Int) : Nat → UInt8
  | 0 => (value % 256).toNat.toUInt8
  | place + 1 => byteOf (value / 256) place

/-- Memory with the four low bytes of a number at an address, the lowest first. -/
def withWord (m : Memory) (a : Nat) (value : Int) : Memory :=
  Vector.ofFn fun x =>
    if a ≤ x.val ∧ x.val < a + 4 then byteOf value (x.val - a) else m.get x

def storing (m : Memory) : Option (Nat × Int) → Memory
  | some (a, value) => m.withWord a value
  | none => m

theorem byteAt_of_lt (m : Memory) {a : Nat} (low : a < 4096) : m.byteAt a = m[a] := by
  simp [byteAt, low]

theorem byteAt_of_le (m : Memory) {a : Nat} (past : 4096 ≤ a) : m.byteAt a = 0 := by
  simp [byteAt, past]

theorem byteAt_ofImage (image : Array UInt8) {a : Nat} (low : a < 4096) :
    (ofImage image).byteAt a = image.getD a 0 := by
  simp [byteAt_of_lt _ low, ofImage]

theorem numberOfBytes_wordBytes (m : Memory) (a : Nat) (h : a + 4 ≤ 4096) :
    (numberOfBytes (wordBytes m a h) : Int) = m.word a := by
  have h0 : a < 4096 := by omega
  have h1 : a + 1 < 4096 := by omega
  have h2 : a + 2 < 4096 := by omega
  have h3 : a + 3 < 4096 := by omega
  simp only [wordBytes, numberOfBytes, word, byteAt_of_lt, h0, h1, h2, h3]
  omega

theorem word_eq {m m' : Memory} {a : Nat}
    (same : ∀ k < 4, m.byteAt (a + k) = m'.byteAt (a + k)) : m.word a = m'.word a := by
  have first : m.byteAt a = m'.byteAt a := same 0 (by decide)
  simp only [word, first, same 1 (by decide), same 2 (by decide), same 3 (by decide)]

theorem word_nonneg (m : Memory) (a : Nat) : 0 ≤ m.word a := by
  unfold word
  omega

theorem word_lt (m : Memory) (a : Nat) : m.word a < 4294967296 := by
  have first := (m.byteAt a).toNat_lt
  have second := (m.byteAt (a + 1)).toNat_lt
  have third := (m.byteAt (a + 2)).toNat_lt
  have fourth := (m.byteAt (a + 3)).toNat_lt
  unfold word
  omega

theorem toUInt8_eq {n : Nat} {x : Int} (same : (n : Int) % 256 = x % 256) :
    n.toUInt8 = (x % 256).toNat.toUInt8 := by
  apply UInt8.toNat_inj.mp
  simp only [Nat.toUInt8, UInt8.toNat_ofNat']
  omega

theorem getElem_setWord (m : Memory) (a : Nat) (h : a + 4 ≤ 4096) (value : Int) (x : Nat)
    (bound : x < 4096) :
    (setWord m a h value)[x] =
      if a ≤ x ∧ x < a + 4 then byteOf value (x - a) else m[x] := by
  simp only [setWord, setBytes, Vector.getElem_set]
  by_cases inside : a ≤ x ∧ x < a + 4
  · have cases : x = a ∨ x = a + 1 ∨ x = a + 2 ∨ x = a + 3 := by omega
    rcases cases with rfl | rfl | rfl | rfl
    all_goals
      simp [byteOf]
      apply toUInt8_eq
      simp only [toWord]
      omega
  · simp only [inside, ↓reduceIte]
    repeat rw [if_neg (by omega)]

theorem setWord_eq (m : Memory) (a : Nat) (h : a + 4 ≤ 4096) (value : Int) :
    setWord m a h value = m.withWord a value := by
  apply Vector.ext
  intro x bound
  rw [getElem_setWord, withWord, Vector.getElem_ofFn]
  rfl

theorem byteAt_withWord (m : Memory) (a : Nat) (value : Int) {x : Nat} (low : x < 4096) :
    (m.withWord a value).byteAt x =
      if a ≤ x ∧ x < a + 4 then byteOf value (x - a) else m.byteAt x := by
  rw [byteAt_of_lt _ low, byteAt_of_lt _ low, withWord, Vector.getElem_ofFn]
  rfl

theorem byteAt_withWord_of_outside (m : Memory) {a x : Nat} (value : Int)
    (outside : x < a ∨ a + 4 ≤ x) : (m.withWord a value).byteAt x = m.byteAt x := by
  by_cases low : x < 4096
  · rw [byteAt_withWord m a value low, if_neg (by omega)]
  · have past := Nat.not_lt.mp low
    rw [byteAt_of_le _ past, byteAt_of_le _ past]

end Memory

end RegisterMachine
