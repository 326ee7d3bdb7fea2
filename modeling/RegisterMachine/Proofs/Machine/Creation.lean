import RegisterMachine.Proofs.State.Words
import RegisterMachine.Proofs.Step.Checks
import RegisterMachine.Machine.Basic

namespace RegisterMachine

namespace Value

def number? : Value → Option Int
  | integer n => some n
  | truth b => some (if b then 1 else 0)
  | _ => none

inductive Defect (v : Value) : ImageError → Prop
  | noNumber (other : v.number? = none) : Defect v (.itemKind v.kind)
  | outside {n : Int} (number : v.number? = some n) (outside : n < 0 ∨ 256 ≤ n) :
    Defect v .itemRange

end Value

def AreBytes (items : List Value) (data : List UInt8) : Prop :=
  items.map Value.number? = data.map fun b => some (b.toNat : Int)

namespace Image

inductive Holds : Image → List UInt8 → Prop
  | bytes (data : Array UInt8) : Holds (bytes data) data.toList
  | sequence {items : List Value} {data : List UInt8} (each : AreBytes items data) :
    Holds (sequence items) data

/-- Why a value is no image. In a sequence the first item that is no byte decides. -/
inductive Refuses : Image → ImageError → Prop
  | integer (n : Int) : Refuses (integer n) (.number .integer)
  | truth (b : Bool) : Refuses (truth b) (.number .truth)
  | text (content : String) : Refuses (text content) .unencodedText
  | real : Refuses real (.notBytes .real)
  | nothing : Refuses nothing (.notBytes .nothing)
  | item {before after : List Value} {data : List UInt8} {v : Value} {e : ImageError}
    (sound : AreBytes before data) (defect : v.Defect e) :
    Refuses (sequence (before ++ v :: after)) e

end Image

namespace Machine

/-- A machine that has done nothing yet, with bytes at the start of its memory. -/
structure Fresh (m : Machine) (data : List UInt8) (tracing : Bool) (limit? : Option Int) :
    Prop where
  memory : m.state.memory.toList = data ++ List.replicate (4096 - data.length) 0
  readBack : itemsBetween m.state.memory.toArray 0 data.length = data
  registers : m.state.registers.toList = List.replicate 16 0
  steps : m.steps = 0
  tracing : m.tracing = tracing
  trace : m.trace = { limit := limit?.map Int.toNat }
  records : m.trace.records = []
  logging : m.logging = false
  log : m.log = #[]

inductive Creates (image : Image) (tracing : Bool) (limit? : Option Int) :
    Except Error Machine → Prop
  | refused {e : ImageError} (refuses : image.Refuses e) :
    Creates image tracing limit? (.error (.image e))
  | tooLarge {data : List UInt8} (holds : image.Holds data) (large : 4096 < data.length) :
    Creates image tracing limit? (.error (.fault (.imageTooLarge data.length)))
  | uncountable {data : List UInt8} {limit : Int} (holds : image.Holds data)
    (fits : data.length ≤ 4096) (limited : limit? = some limit)
    (outside : limit < -9223372036854775808 ∨ 9223372036854775808 ≤ limit) :
    Creates image tracing limit? (.error .traceLimitTooLarge)
  | negative {data : List UInt8} {limit : Int} (holds : image.Holds data)
    (fits : data.length ≤ 4096) (limited : limit? = some limit)
    (lower : -9223372036854775808 ≤ limit) (negative : limit < 0) :
    Creates image tracing limit? (.error .negativeTraceLimit)
  | created {data : List UInt8} {m : Machine} (holds : image.Holds data)
    (fits : data.length ≤ 4096)
    (limited : ∀ limit, limit? = some limit → 0 ≤ limit ∧ limit < 9223372036854775808)
    (fresh : m.Fresh data tracing limit?) : Creates image tracing limit? (.ok m)

end Machine

section

variable {v : Value} {b : UInt8} {items : List Value} {data : List UInt8} {e : ImageError}
  {image : Image}

namespace Value

theorem byte_eq_ok_iff : v.byte = .ok b ↔ v.number? = some (b.toNat : Int) := by
  have low := b.toNat_lt
  cases v with
  | integer n =>
    by_cases inside : 0 ≤ n ∧ n < 256
    · have same : n.toNat.toUInt8 = b ↔ n = b.toNat := by
        rw [← UInt8.toNat_inj]
        simp only [Nat.toUInt8, UInt8.toNat_ofNat']
        omega
      simp only [byte, inside, and_self, ↓reduceIte, Except.ok.injEq, number?, Option.some.injEq,
        same]
    · have apart : n ≠ b.toNat := by omega
      simp [byte, inside, number?, apart]
  | truth t =>
    rw [byte, Except.ok.injEq, number?, Option.some.injEq, ← UInt8.toNat_inj]
    cases t with
    | false => exact Int.natCast_inj.symm
    | true => exact Int.natCast_inj.symm
  | _ => simp [byte, number?]

theorem byte_eq_error_iff : v.byte = .error e ↔ v.Defect e := by
  constructor
  · intro failed
    cases v with
    | integer n =>
      simp only [byte] at failed
      split at failed
      · cases failed
      · cases failed
        exact .outside rfl (by omega)
    | truth t => cases failed
    | _ =>
      cases failed
      exact .noNumber rfl
  · intro defect
    cases defect with
    | noNumber other =>
      cases v with
      | integer => cases other
      | truth => cases other
      | _ => rfl
    | outside number outside =>
      cases v with
      | integer n =>
        cases number
        exact if_neg (by omega)
      | truth t =>
        cases number
        cases t <;> simp at outside
      | _ => cases number

end Value

theorem areBytes_cons :
    AreBytes (v :: items) data ↔
      ∃ b rest, data = b :: rest ∧ v.byte = .ok b ∧ AreBytes items rest := by
  cases data with
  | nil => simp [AreBytes]
  | cons b rest =>
    simp only [AreBytes, List.map_cons, List.cons.injEq, Value.byte_eq_ok_iff]
    constructor
    · rintro ⟨first, later⟩
      exact ⟨b, rest, ⟨rfl, rfl⟩, first, later⟩
    · rintro ⟨_, _, ⟨rfl, rfl⟩, first, later⟩
      exact ⟨first, later⟩

theorem bytesOfValues_eq_ok_iff : bytesOfValues items = .ok data ↔ AreBytes items data := by
  induction items generalizing data with
  | nil => cases data <;> simp [bytesOfValues, AreBytes]
  | cons v items ih =>
    rw [bytesOfValues, bind_eq_ok_iff, areBytes_cons]
    constructor
    · rintro ⟨b, first, converted⟩
      obtain ⟨rest, later, whole⟩ := bind_eq_ok_iff.mp converted
      cases whole
      exact ⟨b, rest, rfl, first, ih.mp later⟩
    · rintro ⟨b, rest, rfl, first, later⟩
      exact ⟨b, first, bind_eq_ok_iff.mpr ⟨rest, ih.mpr later, rfl⟩⟩

theorem bytesOfValues_eq_error_iff :
    bytesOfValues items = .error e ↔
      ∃ before v after data, items = before ++ v :: after ∧ AreBytes before data ∧ v.Defect e := by
  induction items with
  | nil => simp [bytesOfValues]
  | cons v items ih =>
    rw [bytesOfValues, bind_eq_error_iff, Value.byte_eq_error_iff]
    constructor
    · rintro (defect | ⟨b, first, converted⟩)
      · exact ⟨[], v, items, [], rfl, rfl, defect⟩
      · obtain later | ⟨_, _, impossible⟩ := bind_eq_error_iff.mp converted
        · obtain ⟨before, w, after, data, rfl, sound, defect⟩ := ih.mp later
          have bytes := areBytes_cons.mpr ⟨b, data, rfl, first, sound⟩
          exact ⟨v :: before, w, after, b :: data, rfl, bytes, defect⟩
        · cases impossible
    · rintro ⟨before, w, after, data, split, sound, defect⟩
      cases before with
      | nil =>
        cases split
        exact .inl defect
      | cons u before =>
        obtain ⟨rfl, rfl⟩ := List.cons.inj split
        obtain ⟨b, rest, -, first, sound⟩ := areBytes_cons.mp sound
        have later := ih.mpr ⟨before, w, after, rest, rfl, sound, defect⟩
        exact .inr ⟨b, first, bind_eq_error_iff.mpr (.inl later)⟩

namespace Image

theorem toBytes_eq_ok_iff : image.toBytes = .ok data.toArray ↔ image.Holds data := by
  constructor
  · intro converted
    cases image with
    | bytes bytes =>
      cases converted
      exact .bytes _
    | sequence items =>
      cases read : bytesOfValues items with
      | error e =>
        rw [toBytes, read] at converted
        cases converted
      | ok bytes =>
        rw [toBytes, read] at converted
        cases converted
        exact .sequence (bytesOfValues_eq_ok_iff.mp read)
    | _ => cases converted
  · intro holds
    cases holds with
    | bytes bytes => rfl
    | sequence each =>
      rw [toBytes, bytesOfValues_eq_ok_iff.mpr each]
      rfl

theorem toBytes_eq_error_iff : image.toBytes = .error e ↔ image.Refuses e := by
  constructor
  · intro failed
    cases image with
    | bytes bytes => cases failed
    | sequence items =>
      cases read : bytesOfValues items with
      | ok bytes =>
        rw [toBytes, read] at failed
        cases failed
      | error e =>
        rw [toBytes, read] at failed
        cases failed
        obtain ⟨before, v, after, data, rfl, sound, defect⟩ := bytesOfValues_eq_error_iff.mp read
        exact .item sound defect
    | text content =>
      cases failed
      exact .text content
    | integer n =>
      cases failed
      exact .integer n
    | truth b =>
      cases failed
      exact .truth b
    | real =>
      cases failed
      exact .real
    | nothing =>
      cases failed
      exact .nothing
  · intro refuses
    cases refuses with
    | item sound defect =>
      rw [toBytes, bytesOfValues_eq_error_iff.mpr ⟨_, _, _, _, rfl, sound, defect⟩]
      rfl
    | _ => rfl

theorem holds_or_refuses (image : Image) :
    (∃ data, image.Holds data) ∨ ∃ e, image.Refuses e := by
  cases converted : image.toBytes with
  | ok bytes => exact .inl ⟨bytes.toList, toBytes_eq_ok_iff.mp converted⟩
  | error e => exact .inr ⟨e, toBytes_eq_error_iff.mp converted⟩

end Image

namespace Machine

variable {m : Machine} {tracing : Bool} {limit? : Option Int} {result : Except Error Machine}

def fresh (data : List UInt8) (tracing : Bool) (limit? : Option Int) : Machine :=
  { state := { memory := Memory.ofImage data.toArray }, tracing
    trace := { limit := limit?.map Int.toNat } }

theorem toList_ofImage (fits : data.length ≤ 4096) :
    (Memory.ofImage data.toArray).toList = data ++ List.replicate (4096 - data.length) 0 := by
  apply List.ext_getElem
  · simp only [Vector.length_toList, List.length_append, List.length_replicate]
    omega
  · intro a low high
    have placed : a < 4096 := by simpa using low
    have read := Memory.byteAt_ofImage data.toArray placed
    rw [Memory.byteAt_of_lt _ placed] at read
    rw [Vector.getElem_toList, read, List.getElem_append]
    split <;> simp [*]

theorem itemsBetween_ofImage (fits : data.length ≤ 4096) :
    itemsBetween (Memory.ofImage data.toArray).toArray 0 data.length = data := by
  have first : clampedPosition 4096 0 = 0 := rfl
  have last : clampedPosition 4096 data.length = data.length := by
    rw [clampedPosition, if_pos (by omega)]
    omega
  rw [itemsBetween, Vector.size_toArray, first, last, Array.toList_extract, Vector.toList_toArray,
    toList_ofImage fits, List.extract_eq_take_drop, List.drop_zero, Nat.sub_zero, List.take_left]

theorem fresh_iff (fits : data.length ≤ 4096) :
    m.Fresh data tracing limit? ↔ m = fresh data tracing limit? := by
  constructor
  · rintro ⟨memory, -, registers, steps, tracing, trace, -, logging, log⟩
    obtain ⟨⟨_, _⟩, _, _, _, _, _⟩ := m
    have loaded := Vector.toList_inj.mp (memory.trans (toList_ofImage fits).symm)
    have zeros := Vector.toList_inj.mp (registers.trans Vector.toList_replicate.symm)
    simp only at loaded zeros steps tracing trace logging log
    subst loaded zeros steps tracing trace logging log
    rfl
  · rintro rfl
    exact ⟨toList_ofImage fits, itemsBetween_ofImage fits, rfl, rfl, rfl, rfl,
      Trace.records_empty _, rfl, rfl⟩

theorem create_of_refuses (refuses : image.Refuses e) (tracing : Bool) (limit? : Option Int) :
    create image tracing limit? = .error (.image e) := by
  have failed : image.toBytes.mapError Error.image = .error (.image e) := by
    rw [Image.toBytes_eq_error_iff.mpr refuses]
    rfl
  simp only [create, failed, bind, Except.bind]

theorem mapError_of_holds (holds : image.Holds data) :
    image.toBytes.mapError Error.image = .ok data.toArray := by
  rw [Image.toBytes_eq_ok_iff.mpr holds]
  rfl

theorem create_of_large (holds : image.Holds data) (large : 4096 < data.length) (tracing : Bool)
    (limit? : Option Int) :
    create image tracing limit? = .error (.fault (.imageTooLarge data.length)) := by
  have loaded : State.ofImage data.toArray = .error (.fault (.imageTooLarge data.length)) :=
    if_neg (Nat.not_le.mpr large)
  simp only [create, mapError_of_holds holds, bind, Except.bind, loaded]

theorem create_of_fits (holds : image.Holds data) (fits : data.length ≤ 4096) (tracing : Bool)
    (limit? : Option Int) :
    create image tracing limit? =
      match limit? with
      | none => .ok (fresh data tracing none)
      | some limit =>
        if isCountable limit then
          if limit < 0 then .error .negativeTraceLimit else .ok (fresh data tracing (some limit))
        else .error .traceLimitTooLarge := by
  have loaded : State.ofImage data.toArray = .ok { memory := Memory.ofImage data.toArray } :=
    if_pos fits
  simp only [create, mapError_of_holds holds, bind, Except.bind, loaded]
  cases limit? with
  | none => rfl
  | some limit =>
    cases counted : isCountable limit with
    | false =>
      simp only [counted, Bool.not_false, Bool.false_eq_true, ↓reduceIte]
      rfl
    | true =>
      simp only [counted, Bool.not_true, Bool.false_eq_true, ↓reduceIte]
      by_cases negative : limit < 0
      · simp only [negative, ↓reduceIte]
        rfl
      · simp only [negative, ↓reduceIte]
        rfl

theorem isCountable_iff {x : Int} :
    isCountable x = true ↔ -9223372036854775808 ≤ x ∧ x < 9223372036854775808 := by
  simp [isCountable]

namespace Creates

theorem create_eq (creates : Creates image tracing limit? result) :
    create image tracing limit? = result := by
  cases creates with
  | refused refuses => exact create_of_refuses refuses tracing limit?
  | tooLarge holds large => exact create_of_large holds large tracing limit?
  | @uncountable data limit holds fits limited outside =>
    have uncounted : ¬ isCountable limit = true := by
      rw [isCountable_iff]
      omega
    rw [create_of_fits holds fits, limited]
    exact if_neg uncounted
  | negative holds fits limited lower negative =>
    have counted := isCountable_iff.mpr ⟨lower, by omega⟩
    simp only [create_of_fits holds fits, limited, counted, negative, ↓reduceIte]
  | created holds fits limited fresh =>
    rw [create_of_fits holds fits, (fresh_iff fits).mp fresh]
    cases limit? with
    | none => rfl
    | some limit =>
      obtain ⟨lower, upper⟩ := limited limit rfl
      have counted := isCountable_iff.mpr ⟨by omega, upper⟩
      have nonneg : ¬ limit < 0 := by omega
      simp only [counted, nonneg, ↓reduceIte]

theorem exists_creates (image : Image) (tracing : Bool) (limit? : Option Int) :
    ∃ result, Creates image tracing limit? result := by
  rcases image.holds_or_refuses with ⟨data, holds⟩ | ⟨e, refuses⟩
  · by_cases fits : data.length ≤ 4096
    · have fresh : (fresh data tracing limit?).Fresh data tracing limit? :=
        (fresh_iff fits).mpr rfl
      cases limit? with
      | none => exact ⟨_, .created holds fits (by simp) fresh⟩
      | some limit =>
        by_cases outside : limit < -9223372036854775808 ∨ 9223372036854775808 ≤ limit
        · exact ⟨_, .uncountable holds fits rfl outside⟩
        · by_cases negative : limit < 0
          · exact ⟨_, .negative holds fits rfl (by omega) negative⟩
          · refine ⟨_, .created holds fits ?_ fresh⟩
            rintro _ ⟨⟩
            omega
    · exact ⟨_, .tooLarge holds (by omega)⟩
  · exact ⟨_, .refused refuses⟩

end Creates

theorem create_eq_iff (image : Image) (tracing : Bool) (limit? : Option Int)
    (result : Except Error Machine) :
    create image tracing limit? = result ↔ Creates image tracing limit? result := by
  constructor
  · rintro rfl
    -- Some rule applies, and creation comes to what any rule that applies says.
    obtain ⟨result, creates⟩ := Creates.exists_creates image tracing limit?
    rwa [creates.create_eq]
  · exact Creates.create_eq

/-- A limit that is not counted in places is refused as such, be it negative or not. -/
theorem create_of_uncountable_limit :
    (Image.bytes #[7]).Holds [7] ∧
      (∀ m, create (.bytes #[7]) false (some 9223372036854775808) ≠ .ok m) ∧
      create (.bytes #[7]) false (some (-9223372036854775809)) ≠ .error .negativeTraceLimit := by
  refine ⟨.bytes #[7], ?_, ?_⟩
  · intro m created
    cases created
  · intro refused
    cases refused

end Machine

end

end RegisterMachine
