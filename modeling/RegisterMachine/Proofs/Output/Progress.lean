import RegisterMachine.Proofs.Output.Offers

namespace RegisterMachine

theorem Act.counts_or_negative (a : Act) : a.Counts ∨ ∃ count, count < 0 ∧ a = .accept count := by
  cases a with
  | accept count =>
    by_cases negative : count < 0
    · exact .inr ⟨count, negative, rfl⟩
    · exact .inl (Int.not_lt.mp negative)
  | _ => exact .inl trivial

/-- A later offer is not longer, and as long only if the sink took a count so far below zero that
it left everything. -/
def Offer.Precedes (o later : Offer) : Prop :=
  later.data.length ≤ o.data.length ∧
    (later.data.length = o.data.length →
      ∃ count, o.reply = .took count ∧ count ≤ -(o.data.length : Int))

namespace Sink

inductive Begins : Sink → List UInt8 → List Offer → Prop
  | none {s : Sink} {data : List UInt8} : Begins s data []
  | last {s s' : Sink} {data : List UInt8} {reply : Acknowledgement} (left : data ≠ [])
    (wrote : s.write data = (reply, s')) : Begins s data [⟨s, data, reply⟩]
  | next {s s' : Sink} {data : List UInt8} {count : Int} {offers : List Offer} (left : data ≠ [])
    (wrote : s.write data = (.took count, s')) (some : count ≠ 0)
    (rest : Begins s' (remainder count data) offers) :
    Begins s data (⟨s, data, .took count⟩ :: offers)

def Endless (s : Sink) (data : List UInt8) : Prop :=
  ∀ n, ∃ offers, s.Begins data offers ∧ offers.length = n

/-- How a delivery goes on, whatever the sink answers. An offer that finds the script used up is
answered by the last act. -/
structure Progress (s : Sink) (data : List UInt8) : Prop where
  begins : ∀ offers result s', s.Delivers data offers result s' → s.Begins data offers
  offered : ∀ offers, s.Begins data offers →
    (∀ o ∈ offers, o.data ≠ [] ∧ o.data <:+ data) ∧ offers.Pairwise Offer.Precedes
  ends : s.thereafter.Counts → ∃ offers result s', s.deliver data = some (result, s') ∧
    s.Delivers data offers result s' ∧ offers.length ≤ s.script.length + data.length ∧
    s'.offered.toList = s.offered.toList ++ offers.map (·.data.length)
  endless : ∀ count < 0, s.thereafter = .accept count → ∀ offers, s.Begins data offers →
    (∃ o ∈ offers, o.sink.script = []) → s.deliver data = none ∧ s.Endless data
  never : s.deliver data = none ↔ s.Endless data

variable {s s' : Sink} {data : List UInt8} {offers : List Offer} {result : Except Error Unit}

theorem remainder_suffix (count : Int) (data : List UInt8) : remainder count data <:+ data := by
  unfold remainder
  split
  · exact List.drop_suffix _ _
  · exact List.drop_suffix _ _

theorem length_remainder_le (count : Int) (data : List UInt8) :
    (remainder count data).length ≤ data.length :=
  (remainder_suffix count data).length_le

theorem length_remainder_lt {count : Int} (left : data ≠ []) (some : count ≠ 0)
    (above : -(data.length : Int) < count) : (remainder count data).length < data.length := by
  have positive := List.length_pos_iff.mpr left
  unfold remainder
  split
  · rw [List.length_drop]
    omega
  · rw [List.length_drop]
    omega

theorem remainder_ne_nil {count : Int} (left : data ≠ []) (negative : count < 0) :
    remainder count data ≠ [] := by
  have positive := List.length_pos_iff.mpr left
  apply List.length_pos_iff.mp
  rw [remainder, if_neg (by omega), List.length_drop]
  omega

namespace Begins

theorem suffix (begins : s.Begins data offers) :
    ∀ o ∈ offers, o.data ≠ [] ∧ o.data <:+ data := by
  induction begins with
  | none => exact List.forall_mem_nil _
  | last left => exact List.forall_mem_singleton.mpr ⟨left, List.suffix_refl _⟩
  | next left _ _ _ ih =>
    rw [List.forall_mem_cons]
    constructor
    · exact ⟨left, List.suffix_refl _⟩
    · intro o member
      exact ⟨(ih o member).1, (ih o member).2.trans (remainder_suffix _ _)⟩

theorem precedes (begins : s.Begins data offers) : offers.Pairwise Offer.Precedes := by
  induction begins with
  | none => exact .nil
  | last => exact List.pairwise_singleton _ _
  | @next s _ data count offers left _ some rest ih =>
    apply List.pairwise_cons.mpr
    refine ⟨?_, ih⟩
    intro later member
    have within := (rest.suffix later member).2.length_le
    constructor
    · exact Nat.le_trans within (length_remainder_le count data)
    · intro same
      -- The rest would be shorter if anything had been taken off it.
      refine ⟨count, rfl, Int.not_lt.mp ?_⟩
      intro above
      have less := length_remainder_lt left some above
      dsimp only at same
      omega

end Begins

theorem Delivers.begins (delivers : s.Delivers data offers result s') : s.Begins data offers := by
  induction delivers with
  | done => exact .none
  | fails left wrote => exact .last left wrote
  | goesOn left wrote some _ ih => exact .next left wrote some ih

theorem Begins.length_le (begins : s.Begins data offers) {all : List Offer}
    (delivers : s.Delivers data all result s') : offers.length ≤ all.length := by
  induction begins generalizing all with
  | none => exact Nat.zero_le _
  | last left =>
    cases delivers with
    | done => exact absurd rfl left
    | fails => exact Nat.le_refl _
    | goesOn => exact Nat.le_add_left _ _
  | next left wrote some _ ih =>
    cases delivers with
    | done => exact absurd rfl left
    | fails _ wrote' failure =>
      rw [wrote] at wrote'
      cases wrote'
      exact absurd (Acknowledgement.eq_zero_of_failure? failure) some
    | goesOn _ wrote' _ rest =>
      rw [wrote] at wrote'
      cases wrote'
      exact Nat.succ_le_succ (ih rest)

theorem Endless.deliver_eq_none (endless : s.Endless data) : s.deliver data = none := by
  cases delivered : s.deliver data with
  | none => rfl
  | some ended =>
    obtain ⟨all, delivers⟩ := delivers_of_deliver delivered
    obtain ⟨offers, begins, length⟩ := endless (all.length + 1)
    have within := begins.length_le delivers
    omega

theorem Endless.next {count : Int} (endless : s'.Endless (remainder count data)) (left : data ≠ [])
    (wrote : s.write data = (.took count, s')) (some : count ≠ 0) : s.Endless data := by
  intro n
  cases n with
  | zero => exact ⟨[], .none, rfl⟩
  | succ n =>
    obtain ⟨offers, rest, length⟩ := endless n
    exact ⟨_, .next left wrote some rest, congrArg (· + 1) length⟩

theorem endless_of_negative {count : Int} (negative : count < 0)
    (last : s.thereafter = .accept count) (used : s.script = []) (left : data ≠ []) :
    s.Endless data := by
  intro n
  induction n generalizing s data with
  | zero => exact ⟨[], .none, rfl⟩
  | succ n ih =>
    have act : s.act = .accept count := by rw [Sink.act, used, last]; rfl
    have answered : s.act.answer s.kept.size data.length = (.took count, count.toNat) := by
      rw [act]
      rfl
    have used' : (s.keep data count.toNat).script = [] := congrArg List.tail used
    obtain ⟨offers, rest, length⟩ :=
      @ih (s.keep data count.toNat) _ last used' (remainder_ne_nil left negative)
    have some : count ≠ 0 := by omega
    exact ⟨_, .next left (write_eq answered) some rest, congrArg (· + 1) length⟩

theorem thereafter_write {reply : Acknowledgement} (wrote : s.write data = (reply, s')) :
    s'.thereafter = s.thereafter := by
  rcases answered : s.act.answer s.kept.size data.length with ⟨reply', kept⟩
  rw [write_eq answered] at wrote
  cases wrote
  rfl

theorem Begins.endless (begins : s.Begins data offers) {count : Int} (negative : count < 0)
    (last : s.thereafter = .accept count) {o : Offer} (member : o ∈ offers)
    (used : o.sink.script = []) : s.Endless data := by
  induction begins with
  | none => cases member
  | last left =>
    rw [List.mem_singleton.mp member] at used
    exact endless_of_negative negative last used left
  | next left wrote some _ ih =>
    rcases List.mem_cons.mp member with rfl | member
    · exact endless_of_negative negative last used left
    · exact (ih ((thereafter_write wrote).trans last) member).next left wrote some

theorem deliverWithin_zero (left : data ≠ []) : deliverWithin 0 s data = none := by
  cases data with
  | nil => exact absurd rfl left
  | cons b data => rfl

theorem deliverWithin_took {count : Int} (left : data ≠ [])
    (wrote : s.write data = (.took count, s')) (some : count ≠ 0) (budget : Nat) :
    deliverWithin (budget + 1) s data = deliverWithin budget s' (remainder count data) := by
  cases data with
  | nil => exact absurd rfl left
  | cons b data => simp only [deliverWithin, wrote, some, ↓reduceIte]

theorem Delivers.length_le (delivers : s.Delivers data offers result s') {budget : Nat}
    (enough : deliverWithin budget s data ≠ none) : offers.length ≤ budget := by
  induction delivers generalizing budget with
  | done => exact Nat.zero_le _
  | fails left =>
    cases budget with
    | zero => exact absurd (deliverWithin_zero left) enough
    | succ budget => exact Nat.le_add_left _ _
  | goesOn left wrote some _ ih =>
    cases budget with
    | zero => exact absurd (deliverWithin_zero left) enough
    | succ budget =>
      rw [deliverWithin_took left wrote some] at enough
      exact Nat.succ_le_succ (ih enough)

/-- A write that takes something uses up an act of the script or a byte, as long as the last act is
no negative count. -/
theorem measure_write {count : Int} (counts : s.thereafter.Counts) (left : data ≠ [])
    (wrote : s.write data = (.took count, s')) (some : count ≠ 0) :
    s'.script.length + (remainder count data).length < s.script.length + data.length := by
  rcases answered : s.act.answer s.kept.size data.length with ⟨reply, kept⟩
  rw [write_eq answered] at wrote
  cases wrote
  have shorter := length_remainder_le count data
  cases acts : s.script with
  | nil =>
    have act : s.act = s.thereafter := by rw [Sink.act, acts]; rfl
    rw [act] at answered
    have nonneg := (Act.answer_took counts answered).1
    have less := length_remainder_lt left some (by omega)
    simp only [keep, acts, List.tail_nil]
    omega
  | cons a script =>
    simp only [keep, acts, List.tail_cons, List.length_cons]
    omega

theorem deliverWithin_ne_none {budget : Nat} (counts : s.thereafter.Counts)
    (enough : s.script.length + data.length ≤ budget) : deliverWithin budget s data ≠ none := by
  induction budget generalizing s data with
  | zero =>
    have empty : data = [] := List.length_eq_zero_iff.mp (by omega)
    simp [empty, deliverWithin]
  | succ budget ih =>
    by_cases empty : data = []
    · simp [empty, deliverWithin]
    · rcases answered : s.act.answer s.kept.size data.length with ⟨reply, kept⟩
      rcases deliverWithin_succ budget empty answered with
        ⟨e, _, stopped⟩ | ⟨count, some, rfl, goesOn⟩
      · simp [stopped]
      · have less := measure_write counts empty (write_eq answered) some
        rw [goesOn]
        exact ih counts (by omega)

theorem exists_used_of_deliverWithin {budget : Nat} (outlasts : s.script.length < budget)
    (stuck : deliverWithin budget s data = none) :
    ∃ offers, s.Begins data offers ∧ ∃ o ∈ offers, o.sink.script = [] := by
  induction budget generalizing s data with
  | zero => cases outlasts
  | succ budget ih =>
    by_cases empty : data = []
    · simp [empty, deliverWithin] at stuck
    · rcases answered : s.act.answer s.kept.size data.length with ⟨reply, kept⟩
      have wrote := write_eq answered
      cases acts : s.script with
      | nil => exact ⟨_, .last empty wrote, _, List.mem_singleton_self _, acts⟩
      | cons a script =>
        rcases deliverWithin_succ budget empty answered with
          ⟨e, _, stopped⟩ | ⟨count, some, rfl, goesOn⟩
        · rw [stopped] at stuck
          cases stuck
        · have shorter : (s.keep data kept).script.length < budget := by
            rw [acts, List.length_cons] at outlasts
            simp only [keep, acts, List.tail_cons]
            omega
          rw [goesOn] at stuck
          obtain ⟨offers, rest, o, member, used⟩ := ih shorter stuck
          exact ⟨_, .next empty wrote some rest, o, List.mem_cons_of_mem _ member, used⟩

theorem endless_of_deliver_eq_none (stuck : s.deliver data = none) : s.Endless data := by
  have left : data ≠ [] := by
    rintro rfl
    simp [deliver, deliverWithin] at stuck
  have positive := List.length_pos_iff.mpr left
  rcases s.thereafter.counts_or_negative with counts | ⟨count, negative, last⟩
  · exact absurd stuck (deliverWithin_ne_none counts (Nat.le_refl _))
  · obtain ⟨offers, begins, o, member, used⟩ := exists_used_of_deliverWithin (by omega) stuck
    exact begins.endless negative last member used

/-- A delivery offers ends of the data, none of them longer than the one before. It ends within one
offer for each act of the script and one for each byte, unless the last act takes a negative count. -/
theorem deliver_progress (s : Sink) (data : List UInt8) : s.Progress data where
  begins := fun _ _ _ delivers => delivers.begins
  offered := fun _ begins => ⟨begins.suffix, begins.precedes⟩
  ends := by
    intro counts
    have enough := deliverWithin_ne_none counts (Nat.le_refl (s.script.length + data.length))
    obtain ⟨⟨result, s'⟩, delivered⟩ := Option.ne_none_iff_exists'.mp enough
    obtain ⟨offers, delivers⟩ := delivers_of_deliver delivered
    exact ⟨offers, result, s', delivered, delivers, delivers.length_le enough, delivers.seen⟩
  endless := by
    intro count negative last offers begins ⟨o, member, used⟩
    have endless := begins.endless negative last member used
    exact ⟨endless.deliver_eq_none, endless⟩
  never := ⟨endless_of_deliver_eq_none, Endless.deliver_eq_none⟩

example : Sink.deliver { script := [.accept 1], thereafter := .accept (-1) } [1, 2] = none := rfl

end Sink

end RegisterMachine
