import RegisterMachine.Proofs.Text.HexBytes

namespace RegisterMachine

def ConsistsOf (chars : List Char) (text : String) : Prop := text.toList ⊆ chars

instance (chars : List Char) (text : String) : Decidable (ConsistsOf chars text) :=
  inferInstanceAs (Decidable (text.toList ⊆ chars))

def numeralChars : List Char := "0123456789abcdefx-".toList

def IsNumeral (text : String) : Prop := ConsistsOf numeralChars text

def numberOfHexDigits (digits : List Char) : Nat :=
  digits.foldl (fun n c => 16 * n + (hexValue? c).getD 0) 0

def readHexNumeral (text : String) : Int :=
  match text.toList with
  | '-' :: '0' :: 'x' :: digits => -(numberOfHexDigits digits : Int)
  | '0' :: 'x' :: digits => numberOfHexDigits digits
  | _ => 0

def readDigits? (digits : List Char) : Option Nat :=
  if digits ≠ [] ∧ digits.all Char.isDigit then some (Nat.ofDigitChars 10 digits 0) else none

def readDecimal? : List Char → Option Int
  | '-' :: digits => (readDigits? digits).map fun n : Nat => -(n : Int)
  | digits => (readDigits? digits).map fun n : Nat => (n : Int)

section

variable {chars more : List Char} {text first second : String}

theorem ConsistsOf.not_mem (plain : ConsistsOf chars text) {c : Char} (other : c ∉ chars) :
    c ∉ text.toList := by
  intro member
  exact other (plain member)

theorem ConsistsOf.mono (plain : ConsistsOf chars text) (within : chars ⊆ more) :
    ConsistsOf more text := List.Subset.trans plain within

theorem consistsOf_append :
    ConsistsOf chars (first ++ second) ↔ ConsistsOf chars first ∧ ConsistsOf chars second := by
  simp only [ConsistsOf, String.toList_append, List.append_subset]

theorem consistsOf_intercalate {separator : String} (plain : ConsistsOf chars separator)
    {parts : List String} (each : ∀ part ∈ parts, ConsistsOf chars part) :
    ConsistsOf chars (separator.intercalate parts) := by
  induction parts with
  | nil => exact List.nil_subset _
  | cons part parts ih =>
    rw [List.forall_mem_cons] at each
    have rest := ih each.2
    cases parts with
    | nil => simpa using each.1
    | cons second parts =>
      rw [String.intercalate_cons_cons, consistsOf_append, consistsOf_append]
      exact ⟨⟨each.1, plain⟩, rest⟩

end

theorem exists_of_mem_toDigits {base n : Nat} (valid : 1 < base) {c : Char}
    (member : c ∈ Nat.toDigits base n) : ∃ d < base, c = Nat.digitChar d := by
  induction n using Nat.strongRecOn with
  | ind n ih =>
    rw [Nat.toDigits_eq_if valid] at member
    split at member
    · rename_i small
      exact ⟨n, small, List.mem_singleton.mp member⟩
    · have less : n / base < n := Nat.div_lt_self (by omega) valid
      rcases List.mem_append.mp member with earlier | last
      · exact ih (n / base) less earlier
      · exact ⟨n % base, Nat.mod_lt n (by omega), List.mem_singleton.mp last⟩

theorem digitChar_mem_numeralChars {n : Nat} (small : n < 16) : n.digitChar ∈ numeralChars := by
  have all : ∀ d : Fin 16, Nat.digitChar d ∈ numeralChars := by decide
  exact all ⟨n, small⟩

theorem mem_numeralChars_of_mem_toDigits {base n : Nat} (valid : 1 < base) (upper : base ≤ 16)
    {c : Char} (member : c ∈ Nat.toDigits base n) : c ∈ numeralChars := by
  rcases exists_of_mem_toDigits valid member with ⟨d, small, rfl⟩
  exact digitChar_mem_numeralChars (Nat.lt_of_lt_of_le small upper)

theorem isNumeral_nat (n : Nat) : IsNumeral (toString n) := by
  intro c member
  have digits : (toString n).toList = Nat.toDigits 10 n := Nat.toList_repr
  rw [digits] at member
  exact mem_numeralChars_of_mem_toDigits (by decide) (by decide) member

theorem isNumeral_int (x : Int) : IsNumeral (toString x) := by
  rw [Int.toString_eq_repr, Int.repr_eq_if]
  split
  · exact isNumeral_nat x.toNat
  · intro c member
    rw [String.toList_append, List.mem_append] at member
    rcases member with sign | digit
    · rw [List.mem_singleton.mp sign]
      decide
    · exact isNumeral_nat (-x).toNat digit

theorem isNumeral_hexNumeral (width : Nat) (x : Int) : IsNumeral (hexNumeral width x) := by
  intro c member
  simp only [hexNumeral, String.toList_ofList, List.mem_append] at member
  rcases member with (mark | fill) | digit
  · have mark' : c ∈ ['-', '0', 'x'] := by
      split at mark
      · exact mark
      · exact List.mem_cons_of_mem _ mark
    have all : ['-', '0', 'x'] ⊆ numeralChars := by decide
    exact all mark'
  · rw [List.eq_of_mem_replicate fill]
    decide
  · exact mem_numeralChars_of_mem_toDigits (by decide) (by decide) digit

theorem numberOfHexDigits_toDigits (n : Nat) : numberOfHexDigits (Nat.toDigits 16 n) = n := by
  induction n using Nat.strongRecOn with
  | ind n ih =>
    rw [Nat.toDigits_eq_if (by decide)]
    split
    · rename_i small
      simp [numberOfHexDigits, hexValue?_digitChar small]
    · have earlier := ih (n / 16) (by omega)
      have last : hexValue? (n % 16).digitChar = some (n % 16) := hexValue?_digitChar (by omega)
      simp only [numberOfHexDigits] at earlier
      simp only [numberOfHexDigits, List.foldl_append, earlier, List.foldl_cons, List.foldl_nil,
        last, Option.getD_some]
      omega

theorem numberOfHexDigits_fill (k : Nat) (digits : List Char) :
    numberOfHexDigits (List.replicate k '0' ++ digits) = numberOfHexDigits digits := by
  induction k with
  | zero => rfl
  | succ k ih => exact ih

theorem readHexNumeral_hexNumeral (width : Nat) (x : Int) :
    readHexNumeral (hexNumeral width x) = x := by
  unfold readHexNumeral hexNumeral
  by_cases negative : x < 0
  · simp only [negative, ↓reduceIte, String.toList_ofList, List.cons_append, List.nil_append,
      numberOfHexDigits_fill, numberOfHexDigits_toDigits]
    omega
  · simp only [negative, ↓reduceIte, String.toList_ofList, List.cons_append, List.nil_append,
      numberOfHexDigits_fill, numberOfHexDigits_toDigits]
    omega

theorem hexNumeral_inj {width : Nat} {x y : Int} :
    hexNumeral width x = hexNumeral width y ↔ x = y := by
  constructor
  · intro same
    have numbers := congrArg readHexNumeral same
    rwa [readHexNumeral_hexNumeral, readHexNumeral_hexNumeral] at numbers
  · rintro rfl
    rfl

theorem readDigits?_toDigits (n : Nat) : readDigits? (Nat.toDigits 10 n) = some n := by
  have digits : (Nat.toDigits 10 n).all Char.isDigit = true := by
    rw [List.all_eq_true]
    intro c member
    exact Nat.isDigit_of_mem_toDigits (by decide) (by decide) member
  rw [readDigits?, if_pos ⟨Nat.toDigits_ne_nil, digits⟩]
  rw [Nat.ofDigitChars_toDigits (by decide) (by decide)]

theorem readDecimal?_toDigits (n : Nat) : readDecimal? (Nat.toDigits 10 n) = some (n : Int) := by
  have unsigned : '-' ∉ Nat.toDigits 10 n := by
    intro sign
    have digit := Nat.isDigit_of_mem_toDigits (by decide) (by decide) sign
    exact absurd digit (by decide)
  unfold readDecimal?
  split
  · rename_i same
    simp [same] at unsigned
  · rw [readDigits?_toDigits]
    rfl

theorem readDecimal?_toString (x : Int) : readDecimal? (toString x).toList = some x := by
  rw [Int.toString_eq_repr, Int.repr_eq_if]
  split
  · rw [Nat.toList_repr, readDecimal?_toDigits, Int.toNat_of_nonneg (by assumption)]
  · have signed : ("-" ++ (-x).toNat.repr).toList = '-' :: Nat.toDigits 10 (-x).toNat := by
      rw [String.toList_append, Nat.toList_repr]
      rfl
    rw [signed, readDecimal?, readDigits?_toDigits, Option.map_some]
    congr 1
    omega

theorem toString_int_inj {x y : Int} : toString x = toString y ↔ x = y := by
  constructor
  · intro same
    have numbers := congrArg (fun text => readDecimal? text.toList) same
    simpa only [readDecimal?_toString, Option.some.injEq] using numbers
  · rintro rfl
    rfl

theorem toString_nat_inj {m n : Nat} : toString m = toString n ↔ m = n := by
  have numbers : toString (m : Int) = toString (n : Int) ↔ (m : Int) = n := toString_int_inj
  rwa [Int.natCast_inj] at numbers

end RegisterMachine
