import RegisterMachine.Text.Integer

namespace RegisterMachine

variable {c : Char} {digits text : List Char} {n : Nat}

theorem bounds_of_isDigit (digit : c.isDigit = true) : 48 ≤ c.toNat ∧ c.toNat ≤ 57 :=
  Char.isDigit_iff_toNat.mp digit

def IsDecimalChar (c : Char) : Prop := c = '-' ∨ c.isDigit = true

theorem toNat_of_isDecimalChar (decimal : IsDecimalChar c) : 45 ≤ c.toNat ∧ c.toNat < 127 := by
  rcases decimal with rfl | digit
  · decide
  · have bounds := bounds_of_isDigit digit
    omega

theorem isAsciiBlank_of_isDecimalChar (decimal : IsDecimalChar c) : isAsciiBlank c = false := by
  have bounds := toNat_of_isDecimalChar decimal
  have other : c ≠ ' ' := by
    rintro rfl
    exact absurd bounds.1 (by decide)
  simp only [isAsciiBlank, other, decide_false, Bool.false_or, Bool.and_eq_false_iff,
    decide_eq_false_iff_not]
  omega

theorem plainChar_of_isDecimalChar (decimal : IsDecimalChar c) : plainChar c = c :=
  if_pos (toNat_of_isDecimalChar decimal).2

theorem dropWhile_of_isDecimalChar (each : ∀ c ∈ text, IsDecimalChar c) :
    text.dropWhile isAsciiBlank = text := by
  cases text with
  | nil => rfl
  | cons c text =>
    have solid := isAsciiBlank_of_isDecimalChar (each c List.mem_cons_self)
    rw [List.dropWhile_cons_of_neg (by simp [solid])]

theorem digitValues?_eq (each : ∀ c ∈ digits, c.isDigit = true) (nonempty : digits ≠ []) :
    digitValues? digits = some (digits.map fun c => c.toNat - 48) := by
  fun_induction digitValues? digits with
  | case1 => exact absurd rfl nonempty
  | case2 c digit => rfl
  | case3 c other => exact absurd (each c List.mem_cons_self) other
  | case4 c rest =>
    have mark := each '_' (List.mem_cons_of_mem _ List.mem_cons_self)
    exact absurd mark (by decide)
  | case5 c rest =>
    have mark := each '_' (List.mem_cons_of_mem _ List.mem_cons_self)
    exact absurd mark (by decide)
  | case6 c rest single _ digit ih =>
    have others : ∀ c ∈ rest, c.isDigit = true := fun c member =>
      each c (List.mem_cons_of_mem _ member)
    rw [ih others (by rintro rfl; exact single rfl)]
    rfl
  | case7 c rest _ _ other => exact absurd (each c List.mem_cons_self) other

theorem core_eq (each : ∀ c ∈ text, IsDecimalChar c) :
    (((text.map plainChar).dropWhile isAsciiBlank).reverse.dropWhile isAsciiBlank).reverse =
      text := by
  have plain : text.map plainChar = text.map id :=
    List.map_congr_left fun c member => plainChar_of_isDecimalChar (each c member)
  have back : ∀ c ∈ text.reverse, IsDecimalChar c := by simpa using each
  rw [plain, List.map_id, dropWhile_of_isDecimalChar each, dropWhile_of_isDecimalChar back,
    List.reverse_reverse]

def splitSign (chars : List Char) : Bool × List Char :=
  match chars with
  | '-' :: rest => (true, rest)
  | '+' :: rest => (false, rest)
  | _ => (false, chars)

theorem readInteger?_eq (each : ∀ c ∈ text, IsDecimalChar c) :
    readInteger? (String.ofList text) =
      match digitValues? (splitSign text).2 with
      | none => none
      | some values =>
        if values.length ≤ maxDigits then
          let n : Nat := values.foldl (fun n d => 10 * n + d) 0
          some (if (splitSign text).1 then -n else n)
        else none := by
  rw [readInteger?, String.toList_ofList]
  simp only [core_eq each]
  rfl

theorem splitSign_digits (each : ∀ c ∈ digits, c.isDigit = true) :
    splitSign digits = (false, digits) := by
  unfold splitSign
  split
  · exact absurd (each '-' List.mem_cons_self) (by decide)
  · exact absurd (each '+' List.mem_cons_self) (by decide)
  · rfl

theorem readInteger?_digits (each : ∀ c ∈ digits, c.isDigit = true) (nonempty : digits ≠ [])
    (short : digits.length ≤ maxDigits) :
    readInteger? (String.ofList digits) = some (Nat.ofDigitChars 10 digits 0 : Int) ∧
      readInteger? (String.ofList ('-' :: digits)) =
        some (-(Nat.ofDigitChars 10 digits 0 : Int)) := by
  have decimal : ∀ c ∈ digits, IsDecimalChar c := fun c member => .inr (each c member)
  have signed : ∀ c ∈ '-' :: digits, IsDecimalChar c := List.forall_mem_cons.mpr ⟨.inl rfl, decimal⟩
  have values := digitValues?_eq each nonempty
  have number : (digits.map fun c => c.toNat - 48).foldl (fun n d => 10 * n + d) 0 =
      Nat.ofDigitChars 10 digits 0 := by
    rw [List.foldl_map, Nat.ofDigitChars_eq_foldl]
    rfl
  constructor
  · rw [readInteger?_eq decimal, splitSign_digits each]
    simp only [values, number, List.length_map, short, ↓reduceIte, Bool.false_eq_true]
  · rw [readInteger?_eq signed, splitSign]
    simp only [values, number, List.length_map, short, ↓reduceIte]

theorem isDigit_of_mem_toDigits (n : Nat) : ∀ c ∈ Nat.toDigits 10 n, c.isDigit = true :=
  fun _ member => Nat.isDigit_of_mem_toDigits (by decide) (by decide) member

theorem length_toDigits_le_maxDigits :
    (Nat.toDigits 10 n).length ≤ maxDigits ↔ n < numeralLimit := by
  have bound (k : Nat) (some : 0 < k) : (Nat.toDigits 10 n).length ≤ k ↔ n < Nat.pow 10 k :=
    Nat.length_toDigits_le_iff (by decide) some
  unfold numeralLimit
  exact bound maxDigits (by decide)

end RegisterMachine
