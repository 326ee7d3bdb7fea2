import RegisterMachine.Proofs.Output.Delivery

namespace RegisterMachine

/-- Bytes that are offered to a sink, with the sink as it was before and its answer. -/
structure Offer where
  sink : Sink
  data : List UInt8
  reply : Acknowledgement

/-- The failures that an offer can bring about. A refusal of a device or of a stream becomes the
cause of a fault, and any other refusal passes. -/
inductive Offer.Fails (o : Offer) : Error → Prop
  | rejected {r : Refusal} {f : Fault} (raised : o.reply = .refused r)
    (origin : r.origin = .device ∨ r.origin = .brokenPipe ∨ r.origin = .closedStream)
    (kind : f.kind = .write) (cause : f.cause? = some r)
    (message : f.message = s!"Output sink rejected {o.data.length} bytes: {r.message}") :
    Fails o (.fault f)
  | stalled {f : Fault} (nothing : o.reply = .took 0 ∨ o.reply = .blocked)
    (kind : f.kind = .write) (cause : f.cause? = none)
    (message : f.message = s!"Output sink accepted none of {o.data.length} bytes") :
    Fails o (.fault f)
  | passed {r : Refusal} (raised : o.reply = .refused r)
    (origin : r.origin = .sinkState ∨ r.origin = .sinkType) : Fails o (.refused r)

inductive Sink.Delivers :
    Sink → List UInt8 → List Offer → Except Error Unit → Sink → Prop
  | done {s : Sink} : Delivers s [] [] (.ok ()) s
  | fails {s s' : Sink} {data : List UInt8} {reply : Acknowledgement} {e : Error}
    (left : data ≠ []) (wrote : s.write data = (reply, s'))
    (failure : reply.failure? data.length = some e) :
    Delivers s data [⟨s, data, reply⟩] (.error e) s'
  | goesOn {s s₁ s' : Sink} {data : List UInt8} {count : Int} {offers : List Offer}
    {result : Except Error Unit} (left : data ≠ []) (wrote : s.write data = (.took count, s₁))
    (some : count ≠ 0) (rest : Delivers s₁ (remainder count data) offers result s') :
    Delivers s data (⟨s, data, .took count⟩ :: offers) result s'

/-- What a delivery is to a sink that counts. The sink has seen these offers and no others; what it
keeps are the first bytes, and all of them exactly if the delivery succeeds; each offer is what the
sink has not kept by then; and the last offer decides the failure. -/
structure Sink.KeepsCount (s : Sink) (data : List UInt8) (offers : List Offer)
    (result : Except Error Unit) (s' : Sink) : Prop where
  delivers : s.Delivers data offers result s'
  seen : s'.offered.toList = s.offered.toList ++ offers.map (·.data.length)
  kept : ∃ part, part <+: data ∧ s'.kept.toList = s.kept.toList ++ part ∧
    (result = .ok () ↔ part = data)
  offered : ∀ o ∈ offers, o.data ≠ [] ∧
    ∃ part, o.sink.kept.toList = s.kept.toList ++ part ∧ part ++ o.data = data
  failure : ∀ e, result = .error e → ∃ o, offers.getLast? = some o ∧ o.Fails e

theorem Offer.fails_of_failure? {o : Offer} {e : Error}
    (failure : o.reply.failure? o.data.length = some e) : o.Fails e := by
  obtain ⟨s, data, reply⟩ := o
  cases reply with
  | took count =>
    have zero := Acknowledgement.eq_zero_of_failure? failure
    subst zero
    cases failure
    exact .stalled (.inl rfl) rfl rfl rfl
  | blocked =>
    cases failure
    exact .stalled (.inr rfl) rfl rfl rfl
  | refused r =>
    obtain ⟨origin, message⟩ := r
    cases failure
    cases origin with
    | device => exact .rejected rfl (.inl rfl) rfl rfl rfl
    | brokenPipe => exact .rejected rfl (.inr (.inl rfl)) rfl rfl rfl
    | closedStream => exact .rejected rfl (.inr (.inr rfl)) rfl rfl rfl
    | sinkState => exact .passed rfl (.inl rfl)
    | sinkType => exact .passed rfl (.inr rfl)

namespace Sink

variable {s s' : Sink} {data : List UInt8} {offers : List Offer} {result : Except Error Unit}

theorem delivers_of_deliverWithin {budget : Nat}
    (delivered : deliverWithin budget s data = some (result, s')) :
    ∃ offers, s.Delivers data offers result s' := by
  induction budget generalizing s data with
  | zero =>
    cases data with
    | nil =>
      cases delivered
      exact ⟨[], .done⟩
    | cons b data => cases delivered
  | succ budget ih =>
    by_cases empty : data = []
    · subst empty
      cases delivered
      exact ⟨[], .done⟩
    · rcases answered : s.act.answer s.kept.size data.length with ⟨reply, count⟩
      have wrote := write_eq answered
      rcases deliverWithin_succ budget empty answered with
        ⟨e, failure, stopped⟩ | ⟨k, nonzero, rfl, goesOn⟩
      · rw [stopped] at delivered
        cases delivered
        exact ⟨_, .fails empty wrote failure⟩
      · rw [goesOn] at delivered
        obtain ⟨offers, rest⟩ := ih delivered
        exact ⟨_, .goesOn empty wrote nonzero rest⟩

theorem delivers_of_deliver (delivered : s.deliver data = some (result, s')) :
    ∃ offers, s.Delivers data offers result s' :=
  delivers_of_deliverWithin delivered

theorem write_took (counts : s.Always Act.Counts) {count : Int} {s₁ : Sink}
    (wrote : s.write data = (.took count, s₁)) :
    s₁ = s.keep data count.toNat ∧ remainder count data = data.drop count.toNat := by
  rcases answered : s.act.answer s.kept.size data.length with ⟨reply, kept⟩
  rw [write_eq answered] at wrote
  cases wrote
  obtain ⟨nonneg, rfl⟩ := Act.answer_took counts.act answered
  exact ⟨rfl, if_pos nonneg⟩

theorem offered_write {reply : Acknowledgement} (wrote : s.write data = (reply, s')) :
    s'.offered.toList = s.offered.toList ++ [data.length] := by
  rcases answered : s.act.answer s.kept.size data.length with ⟨reply', count⟩
  rw [write_eq answered] at wrote
  cases wrote
  exact Array.toList_push

namespace Delivers

theorem seen (delivers : s.Delivers data offers result s') :
    s'.offered.toList = s.offered.toList ++ offers.map (·.data.length) := by
  induction delivers with
  | done => exact (List.append_nil _).symm
  | fails _ wrote => exact offered_write wrote
  | goesOn _ wrote _ _ ih =>
    rw [ih, offered_write wrote, List.append_assoc]
    rfl

theorem offered (delivers : s.Delivers data offers result s') (counts : s.Always Act.Counts) :
    ∀ o ∈ offers, o.data ≠ [] ∧
      ∃ part, o.sink.kept.toList = s.kept.toList ++ part ∧ part ++ o.data = data := by
  induction delivers with
  | done => exact List.forall_mem_nil _
  | fails left =>
    intro o member
    rw [List.mem_singleton.mp member]
    exact ⟨left, [], by simp, rfl⟩
  | @goesOn s _ _ data count _ _ left wrote _ _ ih =>
    obtain ⟨rfl, dropped⟩ := write_took counts wrote
    rw [List.forall_mem_cons]
    refine ⟨⟨left, [], by simp, rfl⟩, ?_⟩
    intro o member
    obtain ⟨left', part, kept, split⟩ := ih (counts.keep data count.toNat) o member
    -- What the first offer has placed comes before what the later ones have.
    refine ⟨left', data.take count.toNat ++ part, ?_, ?_⟩
    · rw [kept, toList_kept_keep, List.append_assoc]
    · rw [List.append_assoc, split, dropped, List.take_append_drop]

theorem failure {e : Error} (delivers : s.Delivers data offers (.error e) s') :
    ∃ o, offers.getLast? = some o ∧ o.Fails e := by
  generalize failed : Except.error e = result at delivers
  induction delivers with
  | done => cases failed
  | fails left wrote failure =>
    cases failed
    exact ⟨_, rfl, Offer.fails_of_failure? failure⟩
  | @goesOn s _ _ data count offers _ _ _ _ _ ih =>
    obtain ⟨o, last, fails⟩ := ih failed
    exact ⟨o, by rw [List.getLast?_cons, last, Option.getD_some], fails⟩

end Delivers

theorem deliver_offers (counts : s.Always Act.Counts) (data : List UInt8) :
    ∃ offers result s', s.deliver data = some (result, s') ∧
      s.KeepsCount data offers result s' := by
  obtain ⟨result, s', part, rest, delivered, -, split, kept, complete⟩ :=
    deliver_counts counts data
  obtain ⟨offers, delivers⟩ := delivers_of_deliver delivered
  refine ⟨offers, result, s', delivered, delivers, delivers.seen,
    ⟨part, ⟨rest, split⟩, kept, ?_⟩, delivers.offered counts, ?_⟩
  · rw [complete, ← split]
    exact List.append_right_eq_self.symm.trans eq_comm
  · rintro e rfl
    exact delivers.failure

/-- The sink takes two of three bytes and then turns out to be closed. -/
theorem deliver_offers_closed :
    let closed : Refusal := ⟨.closedStream, "write to closed file"⟩
    let s : Sink := { script := [.accept 2, .refuse closed] }
    s.Always Act.Counts ∧ ∃ offers s',
      s.deliver [1, 2, 3] = some (.error (.fault (.writeRefused 1 closed)), s') ∧
        s'.kept = #[1, 2] ∧
        s.KeepsCount [1, 2, 3] offers (.error (.fault (.writeRefused 1 closed))) s' := by
  intro closed s
  have counts : s.Always Act.Counts := ⟨by simp [s, Act.Counts], trivial⟩
  have computed : s.deliver [1, 2, 3] =
      some (.error (.fault (.writeRefused 1 closed)),
        { kept := #[1, 2], offered := #[3, 1] }) := rfl
  obtain ⟨offers, result, s', delivered, keepsCount⟩ := deliver_offers counts [1, 2, 3]
  rw [computed] at delivered
  cases delivered
  exact ⟨counts, offers, _, computed, rfl, keepsCount⟩

end Sink

end RegisterMachine
