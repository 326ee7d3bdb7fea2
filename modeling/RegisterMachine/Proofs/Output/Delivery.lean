import RegisterMachine.Sink

namespace RegisterMachine

def Act.Counts : Act → Prop
  | .accept count => 0 ≤ count
  | _ => True

def Act.Accepts : Act → Prop
  | .all => True
  | .accept count => 1 ≤ count
  | _ => False

def Error.FromSink : Error → Prop
  | .fault (.writeRefused _ _) => True
  | .fault (.writeStalled _) => True
  | .refused _ => True
  | _ => False

theorem Act.Accepts.counts {a : Act} (accepts : a.Accepts) : a.Counts := by
  cases a with
  | accept count =>
    simp only [Act.Accepts] at accepts
    simp only [Act.Counts]
    omega
  | _ => trivial

theorem Act.answer_took {a : Act} (counts : a.Counts) {held offered kept : Nat} {count : Int}
    (answered : a.answer held offered = (.took count, kept)) : 0 ≤ count ∧ kept = count.toNat := by
  cases a with
  | all =>
    cases answered
    exact ⟨Int.natCast_nonneg _, rfl⟩
  | accept count =>
    cases answered
    exact ⟨counts, rfl⟩
  | block => cases answered
  | refuse refusal => cases answered
  | within capacity refusal =>
    simp only [answer] at answered
    split at answered
    · cases answered
      exact ⟨Int.natCast_nonneg _, rfl⟩
    · cases answered

theorem Act.Accepts.answer {a : Act} (accepts : a.Accepts) (held : Nat) (data : List UInt8)
    (nonempty : data ≠ []) :
    ∃ count kept, 1 ≤ count ∧ a.answer held data.length = (.took count, kept) := by
  have positive := List.length_pos_iff.mpr nonempty
  cases a with
  | all => exact ⟨data.length, data.length, by omega, rfl⟩
  | accept count => exact ⟨count, count.toNat, accepts, rfl⟩
  | block => cases accepts
  | refuse refusal => cases accepts
  | within capacity refusal => cases accepts

def Acknowledgement.failure? (offered : Nat) : Acknowledgement → Option Error
  | took count => if count = 0 then some (.fault (.writeStalled offered)) else none
  | blocked => some (.fault (.writeStalled offered))
  | refused refusal =>
    some (if refusal.isWriteFault then .fault (.writeRefused offered refusal)
      else .refused refusal)

theorem Acknowledgement.fromSink_of_failure? {offered : Nat} {reply : Acknowledgement} {e : Error}
    (failed : reply.failure? offered = some e) : e.FromSink := by
  cases reply with
  | took count =>
    simp only [failure?] at failed
    split at failed
    · cases failed
      trivial
    · cases failed
  | blocked =>
    cases failed
    trivial
  | refused refusal =>
    simp only [failure?, Option.some.injEq] at failed
    subst failed
    split <;> trivial

theorem Acknowledgement.eq_zero_of_failure? {offered : Nat} {count : Int} {e : Error}
    (failed : (took count).failure? offered = some e) : count = 0 := by
  simp only [failure?] at failed
  split at failed
  · assumption
  · cases failed

theorem Act.answer_of_failure? {a : Act} (counts : a.Counts) {held offered kept : Nat}
    {reply : Acknowledgement} {e : Error} (answered : a.answer held offered = (reply, kept))
    (failed : reply.failure? offered = some e) : kept = 0 := by
  cases a with
  | all =>
    cases answered
    have zero := Acknowledgement.eq_zero_of_failure? failed
    omega
  | accept count =>
    cases answered
    have zero := Acknowledgement.eq_zero_of_failure? failed
    omega
  | block =>
    cases answered
    rfl
  | refuse refusal =>
    cases answered
    rfl
  | within capacity refusal =>
    simp only [answer] at answered
    split at answered
    · cases answered
      have zero := Acknowledgement.eq_zero_of_failure? failed
      omega
    · cases answered
      rfl

namespace Sink

structure Always (p : Act → Prop) (s : Sink) : Prop where
  script : ∀ a ∈ s.script, p a
  thereafter : p s.thereafter

def act (s : Sink) : Act := s.script.head?.getD s.thereafter

/-- The sink after a write of which it kept the first bytes. -/
def keep (s : Sink) (data : List UInt8) (count : Nat) : Sink :=
  { s with
    script := s.script.tail
    kept := s.kept ++ data.take count
    offered := s.offered.push data.length }

theorem toList_kept_keep (s : Sink) (data : List UInt8) (count : Nat) :
    (s.keep data count).kept.toList = s.kept.toList ++ data.take count := by
  simp [keep]

variable {p : Act → Prop} {s : Sink}

theorem accepts_empty : ({} : Sink).Always Act.Accepts := ⟨List.forall_mem_nil _, trivial⟩

theorem Always.act (always : s.Always p) : p s.act := by
  unfold Sink.act
  cases h : s.script with
  | nil => exact always.thereafter
  | cons a script => exact always.script a (by simp [h])

theorem Always.keep (always : s.Always p) (data : List UInt8) (count : Nat) :
    (s.keep data count).Always p where
  script := fun a member => always.script a (List.mem_of_mem_tail member)
  thereafter := always.thereafter

theorem Always.mono {q : Act → Prop} (always : s.Always p) (h : ∀ a, p a → q a) :
    s.Always q where
  script := fun a member => h a (always.script a member)
  thereafter := h _ always.thereafter

theorem write_eq {data : List UInt8} {reply : Acknowledgement} {count : Nat}
    (answered : s.act.answer s.kept.size data.length = (reply, count)) :
    s.write data = (reply, s.keep data count) := by
  have next : s.script.head?.getD s.thereafter = s.act := rfl
  simp only [write, next, answered]
  rfl

theorem deliverWithin_succ (budget : Nat) {data : List UInt8} (nonempty : data ≠ [])
    {reply : Acknowledgement} {count : Nat}
    (answered : s.act.answer s.kept.size data.length = (reply, count)) :
    (∃ e, reply.failure? data.length = some e ∧
      deliverWithin (budget + 1) s data = some (.error e, s.keep data count)) ∨
    ∃ k, k ≠ 0 ∧ reply = .took k ∧
      deliverWithin (budget + 1) s data =
        deliverWithin budget (s.keep data count) (remainder k data) := by
  cases data with
  | nil => exact absurd rfl nonempty
  | cons b data =>
    simp only [deliverWithin, write_eq answered]
    cases reply with
    | took k =>
      by_cases zero : k = 0
      · exact .inl ⟨_, if_pos zero, if_pos zero⟩
      · exact .inr ⟨k, zero, rfl, if_neg zero⟩
    | blocked => exact .inl ⟨_, rfl, rfl⟩
    | refused refusal =>
      refine .inl ⟨_, rfl, ?_⟩
      by_cases fault : refusal.isWriteFault = true <;> simp [fault]

theorem fromSink_of_deliverWithin {budget : Nat} {data : List UInt8} {e : Error} {s' : Sink}
    (failed : deliverWithin budget s data = some (.error e, s')) : e.FromSink := by
  induction budget generalizing s data with
  | zero => cases data <;> cases failed
  | succ budget ih =>
    by_cases empty : data = []
    · subst empty
      cases failed
    · rcases answered : s.act.answer s.kept.size data.length with ⟨reply, count⟩
      rcases deliverWithin_succ budget empty answered with
        ⟨e', failure, stopped⟩ | ⟨k, _, _, goesOn⟩
      · rw [stopped] at failed
        cases failed
        exact Acknowledgement.fromSink_of_failure? failure
      · exact ih (goesOn ▸ failed)

theorem deliverWithin_counts {budget : Nat} {data : List UInt8} (counts : s.Always Act.Counts)
    (enough : data.length ≤ budget) :
    ∃ result s' part rest, deliverWithin budget s data = some (result, s') ∧
      s'.Always Act.Counts ∧ part ++ rest = data ∧ s'.kept.toList = s.kept.toList ++ part ∧
      (result = .ok () ↔ rest = []) := by
  induction budget generalizing s data with
  | zero =>
    have empty : data = [] := List.length_eq_zero_iff.mp (by omega)
    subst empty
    exact ⟨.ok (), s, [], [], rfl, counts, rfl, by simp, by simp⟩
  | succ budget ih =>
    by_cases empty : data = []
    · subst empty
      exact ⟨.ok (), s, [], [], rfl, counts, rfl, by simp, by simp⟩
    · rcases answered : s.act.answer s.kept.size data.length with ⟨reply, count⟩
      rcases deliverWithin_succ budget empty answered with
        ⟨e, failure, stopped⟩ | ⟨k, nonzero, took, goesOn⟩
      · have none := Act.answer_of_failure? counts.act answered failure
        subst none
        refine ⟨.error e, s.keep data 0, [], data, stopped, counts.keep data 0, rfl, ?_, ?_⟩
        · rw [toList_kept_keep, List.take_zero]
        · simp [empty]
      · subst took
        -- A counting sink that took something took a byte, so the rest fits the smaller budget.
        obtain ⟨nonneg, rfl⟩ := Act.answer_took counts.act answered
        have left : remainder k data = data.drop k.toNat := if_pos nonneg
        have shorter : (data.drop k.toNat).length ≤ budget := by
          rw [List.length_drop]
          omega
        obtain ⟨result, s', part, rest, delivered, counts', split, kept, done⟩ :=
          ih (counts.keep data k.toNat) shorter
        refine ⟨result, s', data.take k.toNat ++ part, rest, ?_, counts', ?_, ?_, done⟩
        · rw [goesOn, left, delivered]
        · rw [List.append_assoc, split, List.take_append_drop]
        · rw [kept, toList_kept_keep, List.append_assoc]

theorem fromSink_of_deliver {data : List UInt8} {e : Error} {s' : Sink}
    (failed : s.deliver data = some (.error e, s')) : e.FromSink :=
  fromSink_of_deliverWithin failed

theorem deliver_counts (counts : s.Always Act.Counts) (data : List UInt8) :
    ∃ result s' part rest, s.deliver data = some (result, s') ∧ s'.Always Act.Counts ∧
      part ++ rest = data ∧ s'.kept.toList = s.kept.toList ++ part ∧
      (result = .ok () ↔ rest = []) :=
  deliverWithin_counts counts (Nat.le_add_left _ _)

theorem deliverWithin_accepts {budget : Nat} {data : List UInt8} (accepts : s.Always Act.Accepts)
    (enough : data.length ≤ budget) :
    ∃ s', deliverWithin budget s data = some (.ok (), s') ∧ s'.Always Act.Accepts := by
  induction budget generalizing s data with
  | zero =>
    have empty : data = [] := List.length_eq_zero_iff.mp (by omega)
    subst empty
    exact ⟨s, rfl, accepts⟩
  | succ budget ih =>
    by_cases empty : data = []
    · subst empty
      exact ⟨s, rfl, accepts⟩
    · obtain ⟨k, count, positive, answered⟩ := accepts.act.answer s.kept.size data empty
      rcases deliverWithin_succ budget empty answered with
        ⟨e, failure, -⟩ | ⟨k', -, took, goesOn⟩
      · have zero := Acknowledgement.eq_zero_of_failure? failure
        omega
      · cases took
        have left : remainder k data = data.drop k.toNat := if_pos (by omega)
        have shorter : (remainder k data).length ≤ budget := by
          rw [left, List.length_drop]
          omega
        rw [goesOn]
        exact ih (accepts.keep data count) shorter

theorem deliver_accepts (accepts : s.Always Act.Accepts) (data : List UInt8) :
    ∃ s', s.deliver data = some (.ok (), s') ∧ s'.Always Act.Accepts ∧
      s'.kept.toList = s.kept.toList ++ data := by
  have enough : data.length ≤ s.script.length + data.length := by omega
  obtain ⟨s', delivered, accepts'⟩ := deliverWithin_accepts accepts enough
  obtain ⟨result, s'', part, rest, delivered', -, split, kept, done⟩ :=
    deliver_counts (accepts.mono fun _ => Act.Accepts.counts) data
  rw [deliver, delivered] at delivered'
  cases delivered'
  have nothing := done.mp rfl
  subst nothing
  rw [List.append_nil] at split
  subst split
  exact ⟨s', delivered, accepts', kept⟩

end Sink

end RegisterMachine
