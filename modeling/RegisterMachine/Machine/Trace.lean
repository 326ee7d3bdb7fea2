import RegisterMachine.Instruction
import RegisterMachine.State

namespace RegisterMachine

structure StepRecord where
  step : Nat
  /-- The address that the instruction was fetched from. -/
  ip : Int
  instruction : Instruction
  before : Registers
  after : Registers
  ends : Bool
  deriving DecidableEq

namespace StepRecord

def changes (r : StepRecord) : List String :=
  ((r.before.toList.zip r.after.toList).zipIdx.filter
      fun ((before, after), i) => i ≠ 0 && before ≠ after).map
    fun ((before, after), i) => s!"r{i}: {contentText before} -> {contentText after}"

def nextIp (r : StepRecord) : Int := r.after.pointer

def jumps (r : StepRecord) : Bool := r.nextIp ≠ r.ip + r.instruction.size

def text (r : StepRecord) : String :=
  s!"[{r.step}] {addressText r.ip}: {r.instruction.text}" ++
    (if r.changes.isEmpty then "" else "  (" ++ ", ".intercalate r.changes ++ ")") ++
    (if r.jumps then s!"  jump -> {addressText r.nextIp}" else "") ++
    (if r.ends then "  EXIT" else "")

end StepRecord

def newest {α : Type} : Option Nat → List α → List α
  | none, rs => rs
  | some n, rs => rs.drop (rs.length - n)

theorem newest_suffix {α : Type} (limit : Option Nat) (rs : List α) : newest limit rs <:+ rs := by
  cases limit with
  | none => exact List.suffix_refl rs
  | some n => exact List.drop_suffix _ rs

theorem length_newest {α : Type} (limit : Option Nat) (rs : List α) :
    (newest limit rs).length =
      match limit with
      | none => rs.length
      | some n => min n rs.length := by
  cases limit with
  | none => rfl
  | some n =>
    simp only [newest, List.length_drop]
    omega

theorem newest_append {α : Type} (limit : Option Nat) (rs new : List α) :
    newest limit (newest limit rs ++ new) = newest limit (rs ++ new) := by
  cases limit with
  | none => rfl
  | some n =>
    have front : rs.length - n ≤ rs.length := Nat.sub_le _ _
    have total : rs.length + new.length - n =
        rs.length - n + (rs.length - (rs.length - n) + new.length - n) := by omega
    simp only [newest, List.length_append, List.length_drop]
    rw [total, ← List.drop_drop, List.drop_append_of_le_length front]

theorem StepRecord.zero_eq_length_nil : 0 = ([] : List StepRecord).length := rfl

/-- The records of a trace. Records past the limit are dropped once in a while, not at each step. -/
structure Trace where
  limit : Option Nat := some 10000
  /-- Newest first. -/
  stored : List StepRecord := []
  count : Nat := 0
  count_eq : count = stored.length := by exact StepRecord.zero_eq_length_nil

namespace Trace

def records (t : Trace) : List StepRecord :=
  match t.limit with
  | none => t.stored.reverse
  | some n => (t.stored.take n).reverse

def push (t : Trace) (r : StepRecord) : Trace :=
  match t.limit with
  | none => { t with stored := r :: t.stored, count := t.count + 1, count_eq := by simp [t.count_eq] }
  | some n =>
    if t.count < 2 * n then
      { t with stored := r :: t.stored, count := t.count + 1, count_eq := by simp [t.count_eq] }
    else
      { t with stored := (r :: t.stored).take n, count := ((r :: t.stored).take n).length
               count_eq := rfl }

@[simp]
theorem limit_push (t : Trace) (r : StepRecord) : (t.push r).limit = t.limit := by
  unfold push
  split <;> simp_all
  split <;> rfl

theorem stored_push (t : Trace) (r : StepRecord) :
    (t.push r).stored = r :: t.stored ∨
      ∃ n, t.limit = some n ∧ (t.push r).stored = (r :: t.stored).take n := by
  unfold push
  split
  · exact .inl rfl
  · split
    · exact .inl rfl
    · exact .inr ⟨_, by assumption, rfl⟩

theorem records_push (t : Trace) (r : StepRecord) :
    (t.push r).records = newest t.limit (t.records ++ [r]) := by
  rcases h : t.limit with _ | n
  · rcases stored_push t r with hs | ⟨n, hn, _⟩
    · simp [records, newest, h, hs]
    · simp [h] at hn
  · have taken : ((t.push r).stored.take n) = (r :: t.stored).take n := by
      rcases stored_push t r with hs | ⟨k, hk, hs⟩
      · rw [hs]
      · obtain rfl : k = n := by simpa [h] using hk.symm
        rw [hs, List.take_take, Nat.min_self]
    simp only [records, limit_push, h, taken, newest]
    cases n with
    | zero => simp
    | succ n =>
      simp only [List.take_succ_cons, List.reverse_cons, List.length_append, List.length_reverse,
        List.length_take, List.length_cons, List.length_nil]
      by_cases full : n + 1 ≤ t.stored.length
      · rw [Nat.min_eq_left full, List.drop_append_of_le_length (by simp; omega)]
        rw [List.drop_reverse]
        congr 2
        simp [List.take_take, Nat.min_eq_left full]
      · have short : t.stored.length ≤ n := by omega
        rw [List.take_of_length_le short, List.take_of_length_le (by omega)]
        rw [show min (n + 1) t.stored.length + (0 + 1) - (n + 1) = 0 by omega, List.drop_zero]

@[simp]
theorem records_empty (limit : Option Nat) : records { limit } = [] := by
  cases limit <;> simp [records]

theorem newest_records (t : Trace) : newest t.limit t.records = t.records := by
  rcases h : t.limit with _ | n
  · rfl
  · have short : t.records.length - n = 0 := by
      simp only [records, h, List.length_reverse, List.length_take]
      omega
    rw [newest, short, List.drop_zero]

theorem mem_records_push {t : Trace} {r r' : StepRecord} (member : r' ∈ (t.push r).records) :
    r' ∈ t.records ∨ r' = r := by
  rw [records_push] at member
  simpa using (newest_suffix _ _).subset member

end Trace

def Trace.text (t : Trace) : String := "\n".intercalate (t.records.map StepRecord.text)

end RegisterMachine
