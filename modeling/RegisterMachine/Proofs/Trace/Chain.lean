import Mathlib.Data.List.Chain
import RegisterMachine.Proofs.State.Registers
import RegisterMachine.Proofs.Trace.Reading

namespace RegisterMachine

namespace StepRecord

variable {r r' : StepRecord}

theorem Agrees.after_of_changed (agrees : r.Agrees r') {i : Fin 16} (other : i ≠ 0)
    (changed : r.before.get i ≠ r.after.get i) : r'.after.get i = r.after.get i := by
  have shown := mem_changes.mpr ⟨i, other, changed, rfl⟩
  rw [agrees.changes] at shown
  rcases mem_changes.mp shown with ⟨j, -, -, same⟩
  rcases changeText_inj.mp same with ⟨index, -, after⟩
  rw [Fin.ext index] at after ⊢
  exact after.symm

theorem Agrees.symm (agrees : r.Agrees r') : r'.Agrees r where
  heading := agrees.heading.symm
  changes := agrees.changes.symm
  jumps := agrees.jumps.symm
  target := by
    intro on
    exact (agrees.target (agrees.jumps.trans on)).symm
  ends := agrees.ends.symm

theorem Agrees.after_get (agrees : r.Agrees r') (start : r.before = r'.before) {i : Fin 16}
    (other : i ≠ 0) : r.after.get i = r'.after.get i := by
  by_cases changed : r.before.get i = r.after.get i
  · by_cases changed' : r'.before.get i = r'.after.get i
    · rw [← changed, ← changed', start]
    · exact agrees.symm.after_of_changed other changed'
  · exact (agrees.after_of_changed other changed).symm

theorem nextIp_of_stays (stays : r.jumps = false) : r.nextIp = r.ip + r.instruction.size :=
  of_not_not (of_decide_eq_false stays)

theorem Agrees.nextIp (agrees : r.Agrees r') : r.nextIp = r'.nextIp := by
  rcases heading_inj.mp agrees.heading with ⟨-, ip, instruction⟩
  cases jumps : r.jumps with
  | true => exact agrees.target jumps
  | false =>
    have stays : r'.jumps = false := agrees.jumps.symm.trans jumps
    rw [nextIp_of_stays jumps, nextIp_of_stays stays, ip, instruction]

theorem eq_of_text_eq (start : r.before = r'.before) (same : r.text = r'.text) : r = r' := by
  have agrees := agrees_of_text_eq same
  rcases heading_inj.mp agrees.heading with ⟨step, ip, instruction⟩
  have after : r.after = r'.after := by
    apply Vector.ext
    intro i small
    by_cases pointer : i = 0
    · subst pointer
      exact agrees.nextIp
    · have other : (⟨i, small⟩ : Fin 16) ≠ 0 := by
        intro zero
        exact pointer (congrArg Fin.val zero)
      exact agrees.after_get start other
  cases r
  cases r'
  simp only [mk.injEq]
  exact ⟨step, ip, instruction, start, after, agrees.ends⟩

end StepRecord

/-- Records of steps of which each goes on from the registers that the one before it has left. -/
def Chained (records : List StepRecord) : Prop :=
  records.IsChain fun r next => r.after = next.before

theorem eq_of_texts_eq {start : Registers} {records others : List StepRecord}
    (begins : ∀ r ∈ records.head?, start = r.before)
    (begins' : ∀ r ∈ others.head?, start = r.before) (chained : Chained records)
    (chained' : Chained others)
    (same : records.map StepRecord.text = others.map StepRecord.text) : records = others := by
  -- The first records are equal, and they leave the registers from which the rest goes on.
  induction records generalizing start others with
  | nil => exact (List.map_eq_nil_iff.mp same.symm).symm
  | cons r records ih =>
    cases others with
    | nil => cases same
    | cons r' others =>
      rcases List.isChain_cons.mp chained with ⟨follows, rest⟩
      rcases List.isChain_cons.mp chained' with ⟨follows', rest'⟩
      rcases List.cons_eq_cons.mp same with ⟨text, texts⟩
      have before : r.before = r'.before := (begins r rfl).symm.trans (begins' r' rfl)
      have here : r = r' := StepRecord.eq_of_text_eq before text
      subst here
      rw [ih follows follows' rest rest' texts]

namespace Trace

structure ChainedFrom (t : Trace) (start : Registers) : Prop where
  begins : ∃ r, t.records.head? = some r ∧ r.before = start
  chained : Chained t.records

structure Legible (t : Trace) : Prop where
  lines : linesOf t.text = t.records.map StepRecord.text
  count : (linesOf t.text).length = t.records.length
  shown : ∀ r ∈ t.records, r.Shown

theorem legible (t : Trace) : t.Legible where
  lines := t.linesOf_text
  count := by rw [t.linesOf_text, List.length_map]
  shown := fun r _ => r.shown

theorem ChainedFrom.begins_of_mem {t : Trace} {start : Registers} (chained : t.ChainedFrom start) :
    ∀ r ∈ t.records.head?, start = r.before := by
  rcases chained.begins with ⟨first, found, rfl⟩
  intro r member
  rw [found] at member
  cases member
  rfl

variable {start : Registers} {t t' : Trace}

/-- Text loses no history of the registers: chained traces from the same registers with the same
text have the same records. -/
theorem records_eq_of_text_eq (chained : t.ChainedFrom start) (chained' : t'.ChainedFrom start)
    (same : t.text = t'.text) : t.records = t'.records ∧ ∀ u : Trace, u.Legible := by
  have lines := congrArg linesOf same
  rw [linesOf_text, linesOf_text] at lines
  constructor
  · exact eq_of_texts_eq chained.begins_of_mem chained'.begins_of_mem chained.chained
      chained'.chained lines
  · exact legible

/-- A program that sets register 1 to 7 and ends, step by step. -/
def shortRecords : List StepRecord :=
  let s : State := {}
  let s' := (s.setIp 4).assign 1 7
  [⟨0, 0, .loadImm 1 7, s.registers, s'.registers, false⟩,
    ⟨1, 4, .exit, s'.registers, (s'.setIp 5).registers, true⟩]

theorem records_eq_of_text_eq_short :
    let t : Trace := shortRecords.foldl push { limit := none }
    let t' : Trace := shortRecords.foldl push { limit := some 2 }
    t.ChainedFrom (Vector.replicate 16 0) ∧ t'.ChainedFrom (Vector.replicate 16 0) ∧
      t.text = t'.text ∧ t.records = t'.records := by
  intro t t'
  have records : t.records = shortRecords := rfl
  have records' : t'.records = shortRecords := rfl
  have linked : Chained shortRecords := List.isChain_pair.mpr rfl
  have chained : t.ChainedFrom (Vector.replicate 16 0) := ⟨⟨_, rfl, rfl⟩, linked⟩
  have chained' : t'.ChainedFrom (Vector.replicate 16 0) := ⟨⟨_, rfl, rfl⟩, linked⟩
  have same : t.text = t'.text := by rw [text, text, records, records']
  exact ⟨chained, chained', same, (records_eq_of_text_eq chained chained' same).1⟩

end Trace

end RegisterMachine
