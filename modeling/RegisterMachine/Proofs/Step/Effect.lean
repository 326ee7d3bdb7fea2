import RegisterMachine.Proofs.Output.Encoding
import RegisterMachine.Proofs.Step.Checks

namespace RegisterMachine

inductive Ending
  | fails (error : Error)
  | succeeds (ends : Bool)
  | delivers (payload : List UInt8)

structure Effect where
  state : State
  ending : Ending

def Effect.start (e : Effect) (sink : Sink) : Option (Except Error Bool × Context) :=
  match e.ending with
  | .fails error => some (.error error, ⟨e.state, sink⟩)
  | .succeeds ends => some (.ok ends, ⟨e.state, sink⟩)
  | .delivers payload =>
    (sink.deliver payload).map fun (result, sink) => (result.map fun _ => false, ⟨e.state, sink⟩)

namespace Instruction

def IsOutput : Instruction → Prop
  | out _ => True
  | outNumber _ => True
  | _ => False

def payload (i : Instruction) (s : State) : List UInt8 :=
  match i with
  | out ri => characterBytes (s.operand ri % 256).toNat
  | outNumber ri => decimalBytes (toSigned (s.operand ri))
  | _ => []

/-- What an instruction does in a state whose pointer has moved past it. -/
def effect (i : Instruction) (s : State) : Effect :=
  match i with
  | moveIf rd rs rc =>
    ⟨if s.operand rc = 0 then s else s.assign rd (s.operand rs), .succeeds false⟩
  | store ri rj =>
    match checkSpan (s.operand ri) 4 with
    | .ok a => ⟨s.setWordAt a (s.operand rj), .succeeds false⟩
    | .error e => ⟨s, .fails e⟩
  | load ri rj =>
    match checkSpan (s.operand rj) 4 with
    | .ok a => ⟨s.assign ri (s.wordAt a), .succeeds false⟩
    | .error e => ⟨s, .fails e⟩
  | loadImm ri imm => ⟨s.assign ri (toWord imm.toInt), .succeeds false⟩
  | sub rd ra rb => ⟨s.assign rd (toWord (s.operand ra - s.operand rb)), .succeeds false⟩
  | out _ => ⟨s, .delivers (i.payload s)⟩
  | exit => ⟨s, .succeeds true⟩
  | outNumber _ => ⟨s, .delivers (i.payload s)⟩

end Instruction

theorem Effect.state_of_start {e : Effect} {sink : Sink} {result : Except Error Bool}
    {c : Context} (started : e.start sink = some (result, c)) : c.state = e.state := by
  obtain ⟨s, ending⟩ := e
  cases ending with
  | fails error =>
    cases started
    rfl
  | succeeds ends =>
    cases started
    rfl
  | delivers payload =>
    obtain ⟨_, _, same⟩ := Option.map_eq_some_iff.mp started
    cases same
    rfl

theorem checkSpan_inside {a : Int} (lower : 0 ≤ a) (upper : a ≤ 4092) :
    checkSpan a 4 = .ok ⟨a, by omega⟩ := by
  rw [checkSpan, dif_pos]

theorem checkSpan_outside {a : Int} (outside : a < 0 ∨ 4092 < a) :
    checkSpan a 4 = .error (.fault (.spanOutside a 4)) := by
  have none : ¬ (0 ≤ a ∧ a + 4 ≤ 4096) := by omega
  rw [checkSpan, dif_neg none, if_pos (isWritable_of_lt (by decide) (by decide))]

theorem checkSpan_error {a : Int} {e : Error} (failed : checkSpan a 4 = .error e) :
    e = .fault (.spanOutside a 4) := by
  by_cases outside : a < 0 ∨ 4092 < a
  · rw [checkSpan_outside outside] at failed
    exact (Except.error.inj failed).symm
  · rw [checkSpan_inside (by omega) (by omega)] at failed
    cases failed

theorem checkSpan_ok {a length : Int} {span : Span length} (inside : checkSpan a length = .ok span) :
    span.val = a := by
  unfold checkSpan at inside
  split at inside
  · cases inside
    rfl
  · cases inside

theorem findSlot_operand {b : UInt8} (bound : b.toNat < 16) (missing : Error) :
    findSlot (b.toNat : Int) missing = .ok ⟨b.toNat, bound⟩ := by
  have upper : (b.toNat : Int) < 16 := by omega
  simp [findSlot, slot?, upper]

namespace Action

theorem start_operand {operands : Operands} {name : String} {value : Int}
    (named : operands.get name = .ok value) (c : Context) :
    start (operand operands name) c = some (.ok value, c) := by
  rw [operand, start_liftExcept, named]

theorem start_registerOperand {operands : Operands} {name : String} {b : UInt8}
    (named : operands.get name = .ok (b.toNat : Int)) (bound : b.toNat < 16) (c : Context) :
    start (registerOperand operands name) c = some (.ok (c.state.operand b), c) := by
  rw [registerOperand, start_bind, start_operand named]
  simp only [Option.bind_some, readSlot, start_bind, start_liftExcept, findSlot_operand bound,
    State.operand, bound, ↓reduceDIte]
  rfl

theorem start_assignSlot {b : UInt8} (bound : b.toNat < 16) (value : Int) (c : Context) :
    start (assignSlot (b.toNat : Int) value) c =
      some (.ok (), { c with state := c.state.assign b value }) := by
  rw [assignSlot, start_bind, start_liftExcept, findSlot_operand bound, Option.bind_some]
  simp only [State.assign, bound, ↓reduceDIte]
  rfl

theorem start_loadWord (address : Int) (c : Context) :
    start (loadWord address) c = some ((checkSpan address 4).map c.state.wordAt, c) := by
  rw [loadWord, start_bind, start_liftExcept]
  cases checkSpan address 4 <;> rfl

theorem start_storeWord (address value : Int) (c : Context) :
    start (storeWord address value) c =
      some (match checkSpan address 4 with
        | .ok a => (.ok (), { c with state := c.state.setWordAt a value })
        | .error e => (.error e, c)) := by
  rw [storeWord, start_bind, start_liftExcept]
  cases checkSpan address 4 <;> rfl

theorem start_emit (data : List UInt8) (c : Context) :
    start (emit data) c =
      (c.sink.deliver data).map fun (result, sink) => (result, { c with sink }) := rfl

end Action

namespace Handler

variable {operands : Operands} (s : State) (sink : Sink)

theorem start_moveIf {rd rs rc : UInt8}
    (gd : operands.get "rd" = .ok (rd.toNat : Int)) (hd : rd.toNat < 16)
    (gs : operands.get "rs" = .ok (rs.toNat : Int)) (hs : rs.toNat < 16)
    (gc : operands.get "rc" = .ok (rc.toNat : Int)) (hc : rc.toNat < 16) :
    (moveIf operands).start ⟨s, sink⟩ = ((Instruction.moveIf rd rs rc).effect s).start sink := by
  simp only [moveIf, Action.start_bind, Action.start_registerOperand gc hc, Option.bind_some,
    Instruction.effect]
  by_cases zero : s.operand rc = 0
  · simp only [zero, ne_eq, not_true_eq_false, ↓reduceIte, Action.start_pure, Effect.start]
  · simp only [zero, ne_eq, not_false_eq_true, ↓reduceIte, Action.start_bind, Action.start_pure,
      Action.start_registerOperand gs hs, Action.start_operand gd, Action.start_assignSlot hd,
      Option.bind_some, Effect.start]

theorem start_store {ri rj : UInt8}
    (gi : operands.get "ri" = .ok (ri.toNat : Int)) (hi : ri.toNat < 16)
    (gj : operands.get "rj" = .ok (rj.toNat : Int)) (hj : rj.toNat < 16) :
    (store operands).start ⟨s, sink⟩ = ((Instruction.store ri rj).effect s).start sink := by
  simp only [store, Action.start_bind, Action.start_storeWord, Option.bind_some,
    Action.start_registerOperand gi hi, Action.start_registerOperand gj hj, Instruction.effect]
  cases checkSpan (s.operand ri) 4 with
  | error e => rfl
  | ok a => rfl

theorem start_load {ri rj : UInt8}
    (gi : operands.get "ri" = .ok (ri.toNat : Int)) (hi : ri.toNat < 16)
    (gj : operands.get "rj" = .ok (rj.toNat : Int)) (hj : rj.toNat < 16) :
    (load operands).start ⟨s, sink⟩ = ((Instruction.load ri rj).effect s).start sink := by
  simp only [load, Action.start_bind, Action.start_loadWord, Option.bind_some,
    Action.start_registerOperand gj hj, Instruction.effect]
  cases checkSpan (s.operand rj) 4 with
  | error e => rfl
  | ok a =>
    simp only [Except.map, Action.start_operand gi, Action.start_assignSlot hi, Action.start_pure,
      Option.bind_some, Effect.start]

theorem start_loadImm {ri : UInt8} {imm : BitVec 16}
    (gv : operands.get valueName = .ok (toWord imm.toInt))
    (gi : operands.get "ri" = .ok (ri.toNat : Int)) (hi : ri.toNat < 16) :
    (loadImm operands).start ⟨s, sink⟩ = ((Instruction.loadImm ri imm).effect s).start sink := by
  simp only [loadImm, Action.start_bind, Action.start_operand gv, Action.start_operand gi,
    Action.start_assignSlot hi, Action.start_pure, Option.bind_some, Instruction.effect,
    Effect.start]

theorem start_sub {rd ra rb : UInt8}
    (gd : operands.get "rd" = .ok (rd.toNat : Int)) (hd : rd.toNat < 16)
    (ga : operands.get "ra" = .ok (ra.toNat : Int)) (ha : ra.toNat < 16)
    (gb : operands.get "rb" = .ok (rb.toNat : Int)) (hb : rb.toNat < 16) :
    (sub operands).start ⟨s, sink⟩ = ((Instruction.sub rd ra rb).effect s).start sink := by
  simp only [sub, Action.start_bind, Action.start_registerOperand ga ha,
    Action.start_registerOperand gb hb, Action.start_operand gd, Action.start_assignSlot hd,
    Action.start_pure, Option.bind_some, Instruction.effect, Effect.start]

theorem start_emit_return (data : List UInt8) :
    (Action.emit data >>= fun _ => pure false : Action Bool).start ⟨s, sink⟩ =
      Effect.start ⟨s, .delivers data⟩ sink := by
  simp only [Action.start_bind, Action.start_emit, Effect.start]
  rcases sink.deliver data with _ | ⟨_ | _, _⟩ <;> rfl

theorem start_out {ri : UInt8} (gi : operands.get "ri" = .ok (ri.toNat : Int))
    (hi : ri.toNat < 16) :
    (out operands).start ⟨s, sink⟩ = ((Instruction.out ri).effect s).start sink := by
  rw [out, Action.start_bind, Action.start_registerOperand gi hi, Option.bind_some]
  simp only [textBytes_outputChar]
  exact start_emit_return s sink _

theorem start_outNumber {ri : UInt8} (gi : operands.get "ri" = .ok (ri.toNat : Int))
    (hi : ri.toNat < 16) :
    (outNumber operands).start ⟨s, sink⟩ = ((Instruction.outNumber ri).effect s).start sink := by
  rw [outNumber, Action.start_bind, Action.start_registerOperand gi hi, Option.bind_some]
  simp only [outputNumber, textBytes_toString]
  exact start_emit_return s sink _

end Handler

namespace Instruction

theorem start_handler (i : Instruction) (inRange : i.InRange) (s : State) (sink : Sink) :
    (i.opcode.handler i.operands).start ⟨s, sink⟩ = (i.effect s).start sink := by
  have bound : ∀ r ∈ i.registers, r.toNat < 16 := inRange
  cases i with
  | moveIf rd rs rc =>
    simp only [registers, List.forall_mem_cons] at bound
    exact Handler.start_moveIf s sink rfl bound.1 rfl bound.2.1 rfl bound.2.2.1
  | store ri rj =>
    simp only [registers, List.forall_mem_cons] at bound
    exact Handler.start_store s sink rfl bound.1 rfl bound.2.1
  | load ri rj =>
    simp only [registers, List.forall_mem_cons] at bound
    exact Handler.start_load s sink rfl bound.1 rfl bound.2.1
  | loadImm ri imm =>
    simp only [registers, List.forall_mem_cons] at bound
    exact Handler.start_loadImm s sink rfl rfl bound.1
  | sub rd ra rb =>
    simp only [registers, List.forall_mem_cons] at bound
    exact Handler.start_sub s sink rfl bound.1 rfl bound.2.1 rfl bound.2.2.1
  | out ri =>
    simp only [registers, List.forall_mem_cons] at bound
    exact Handler.start_out s sink rfl bound.1
  | exit => rfl
  | outNumber ri =>
    simp only [registers, List.forall_mem_cons] at bound
    exact Handler.start_outNumber s sink rfl bound.1

def stored? (i : Instruction) (s : State) : Option (Nat × Int) :=
  match i with
  | store ri rj =>
    match checkSpan (s.operand ri) 4 with
    | .ok a => some (a.val.toNat, s.operand rj)
    | .error _ => none
  | _ => none

theorem memory_effect (i : Instruction) (s : State) :
    (i.effect s).state.memory = s.memory.storing (i.stored? s) := by
  cases i with
  | moveIf rd rs rc =>
    simp only [effect]
    split
    · rfl
    · exact s.memory_assign rd _
  | store ri rj =>
    simp only [effect, stored?]
    cases checkSpan (s.operand ri) 4 with
    | ok a => exact s.memory.setWord_eq _ (by omega) _
    | error e => rfl
  | load ri rj =>
    simp only [effect]
    split
    · exact s.memory_assign ri _
    · rfl
  | loadImm ri imm => exact s.memory_assign ri _
  | sub rd ra rb => exact s.memory_assign rd _
  | _ => rfl

theorem memory_of_start {i : Instruction} {s : State} {sink : Sink} {ends : Bool} {c : Context}
    (succeeded : (i.effect s).start sink = some (.ok ends, c)) :
    c.state.memory =
      match i with
      | store ri rj => s.memory.withWord (s.operand ri).toNat (s.operand rj)
      | _ => s.memory := by
  rw [Effect.state_of_start succeeded, memory_effect]
  cases i with
  | store ri rj =>
    simp only [effect] at succeeded
    simp only [stored?]
    cases checked : checkSpan (s.operand ri) 4 with
    | ok a =>
      rw [← checkSpan_ok checked]
      rfl
    | error e =>
      rw [checked] at succeeded
      cases succeeded
  | _ => rfl

/-- An output delivers its payload and changes nothing; any other instruction ends without the
sink. -/
theorem effect_cases (i : Instruction) (s : State) :
    (i.IsOutput ∧ i.effect s = ⟨s, .delivers (i.payload s)⟩) ∨
      (¬ i.IsOutput ∧ i.payload s = [] ∧
        ((∃ a, i.effect s = ⟨s, .fails (.fault (.spanOutside a 4))⟩) ∨
          ∃ s' ends, i.effect s = ⟨s', .succeeds ends⟩)) := by
  cases i with
  | store ri rj =>
    refine .inr ⟨id, rfl, ?_⟩
    simp only [effect]
    cases checked : checkSpan (s.operand ri) 4 with
    | ok a => exact .inr ⟨_, _, rfl⟩
    | error e =>
      obtain rfl := checkSpan_error checked
      exact .inl ⟨_, rfl⟩
  | load ri rj =>
    refine .inr ⟨id, rfl, ?_⟩
    simp only [effect]
    cases checked : checkSpan (s.operand rj) 4 with
    | ok a => exact .inr ⟨_, _, rfl⟩
    | error e =>
      obtain rfl := checkSpan_error checked
      exact .inl ⟨_, rfl⟩
  | out ri => exact .inl ⟨trivial, rfl⟩
  | outNumber ri => exact .inl ⟨trivial, rfl⟩
  | _ => exact .inr ⟨id, rfl, .inr ⟨_, _, rfl⟩⟩

end Instruction

end RegisterMachine
