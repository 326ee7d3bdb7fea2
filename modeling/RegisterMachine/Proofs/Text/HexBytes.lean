import RegisterMachine.Text.HexBytes
import RegisterMachine.Text.Numeral

namespace RegisterMachine

theorem ascii_of_hexValue? {c : Char} (digit : (hexValue? c).isSome) : c.toNat < 128 := by
  have bound {x y : Char} (le : x ≤ y) : x.toNat ≤ y.toNat := le
  unfold hexValue? at digit
  split at digit
  · exact Nat.lt_of_le_of_lt (bound (by simp_all : c ≤ '9')) (by decide)
  · split at digit
    · exact Nat.lt_of_le_of_lt (bound (by simp_all : c ≤ 'f')) (by decide)
    · split at digit
      · exact Nat.lt_of_le_of_lt (bound (by simp_all : c ≤ 'F')) (by decide)
      · cases digit

theorem hexFault?_eq_none_iff {digits : List Char} : hexFault? digits = none ↔
    (∀ c ∈ digits, (hexValue? c).isSome) ∧ digits.length % 2 = 0 := by
  have ascii : (∀ c ∈ digits, (hexValue? c).isSome) →
      (digits.findIdx? fun c => 128 ≤ c.toNat) = none := by
    intro all
    rw [List.findIdx?_eq_none_iff]
    intro c member
    have low := ascii_of_hexValue? (all c member)
    simpa using low
  have known : (digits.findIdx? fun c => (hexValue? c).isNone) = none ↔
      ∀ c ∈ digits, (hexValue? c).isSome := by
    simp [List.findIdx?_eq_none_iff, Option.isSome_iff_ne_none]
  have paired : (if digits.length % 2 = 1 then some digits.length else none) = none ↔
      digits.length % 2 = 0 := by
    split
    · simp only [reduceCtorEq, false_iff]
      omega
    · simp only [true_iff]
      omega
  simp only [hexFault?, Option.or_eq_none_iff, known, paired]
  constructor
  · exact And.right
  · intro valid
    exact ⟨ascii valid.1, valid⟩

theorem digits_of_readHexBytes {text : String} {bytes : List UInt8}
    (read : readHexBytes text = .ok bytes) :
    ∀ c ∈ text.toList, isBlank c = true ∨ (hexValue? c).isSome := by
  intro c member
  simp only [readHexBytes] at read
  split at read
  · cases read
  · rename_i valid
    cases blank : isBlank c with
    | true => exact .inl rfl
    | false =>
      have kept : c ∈ unblanked text := List.mem_filter.mpr ⟨member, by rw [blank]; rfl⟩
      exact .inr ((hexFault?_eq_none_iff.mp valid).1 c kept)

theorem hexValue?_digitChar {n : Nat} (small : n < 16) : hexValue? n.digitChar = some n := by
  have all : ∀ d : Fin 16, hexValue? (Nat.digitChar d) = some d.val := by decide
  exact all ⟨n, small⟩

theorem isBlank_digitChar {n : Nat} (small : n < 16) : isBlank n.digitChar = false := by
  have all : ∀ d : Fin 16, isBlank (Nat.digitChar d) = false := by decide
  exact all ⟨n, small⟩

theorem exists_of_mem_hexPair {b : UInt8} {c : Char} (member : c ∈ hexPair b) :
    ∃ n < 16, c = Nat.digitChar n := by
  have bound := b.toNat_lt
  simp only [hexPair, List.mem_cons, List.not_mem_nil, or_false] at member
  rcases member with first | second
  · exact ⟨_, by omega, first⟩
  · exact ⟨_, by omega, second⟩

theorem hexPairs_hexPair (b : UInt8) (digits : List Char) :
    hexPairs (hexPair b ++ digits) = b :: hexPairs digits := by
  have bound := b.toNat_lt
  have high : hexValue? (Nat.digitChar (b.toNat / 16)) = some (b.toNat / 16) :=
    hexValue?_digitChar (by omega)
  have low : hexValue? (Nat.digitChar (b.toNat % 16)) = some (b.toNat % 16) :=
    hexValue?_digitChar (by omega)
  have halves : 16 * (b.toNat / 16) + b.toNat % 16 = b.toNat := by omega
  simp [hexPair, hexPairs, high, low, halves]

theorem hexPairs_flatMap (bytes : List UInt8) : hexPairs (bytes.flatMap hexPair) = bytes := by
  induction bytes with
  | nil => rfl
  | cons b bytes ih => rw [List.flatMap_cons, hexPairs_hexPair, ih]

theorem hexFault?_flatMap (bytes : List UInt8) : hexFault? (bytes.flatMap hexPair) = none := by
  rw [hexFault?_eq_none_iff]
  constructor
  · intro c member
    rcases List.mem_flatMap.mp member with ⟨b, -, digit⟩
    rcases exists_of_mem_hexPair digit with ⟨n, small, rfl⟩
    rw [hexValue?_digitChar small]
    rfl
  · induction bytes with
    | nil => rfl
    | cons b bytes ih =>
      simp only [List.flatMap_cons, List.length_append, hexPair, List.length_cons, List.length_nil]
      omega

theorem unblanked_append (first second : String) :
    unblanked (first ++ second) = unblanked first ++ unblanked second := by
  rw [unblanked, String.toList_append, List.filter_append, unblanked, unblanked]

theorem unblanked_spacedHex (bytes : List UInt8) :
    unblanked (spacedHex bytes) = bytes.flatMap hexPair := by
  have pair (b : UInt8) : unblanked (String.ofList (hexPair b)) = hexPair b := by
    rw [unblanked, String.toList_ofList, List.filter_eq_self]
    intro c member
    rcases exists_of_mem_hexPair member with ⟨n, small, rfl⟩
    rw [isBlank_digitChar small]
    rfl
  have gap : unblanked " " = [] := by decide
  induction bytes with
  | nil => rfl
  | cons b bytes ih =>
    cases bytes with
    | nil => simp [spacedHex, pair]
    | cons second bytes =>
      simp only [spacedHex, List.map_cons] at ih
      rw [spacedHex, List.map_cons, List.map_cons, String.intercalate_cons_cons, unblanked_append,
        unblanked_append, ih, pair, gap, List.append_nil]
      rfl

theorem readHexBytes_spacedHex (bytes : List UInt8) :
    readHexBytes (spacedHex bytes) = .ok bytes := by
  simp only [readHexBytes, unblanked_spacedHex, hexFault?_flatMap, hexPairs_flatMap]

end RegisterMachine
