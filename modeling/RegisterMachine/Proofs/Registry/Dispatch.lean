import RegisterMachine.Handlers
import RegisterMachine.Proofs.State.Registers

namespace RegisterMachine

namespace Operation

def NamesRegister (op : Operation) (name : String) : Prop :=
  ∃ index, op.operands.lookup name = some index ∧ 0 ≤ index ∧ index < 16

/-- What is wrong with a register operand. The fault of an index that names no register tells the
index, unless that has too many digits. -/
inductive Defect (op : Operation) (name : String) : Error → Prop
  | missing (absent : op.operands.lookup name = none) : Defect op name (.missingOperand name)
  | outside {index : Int} (given : op.operands.lookup name = some index)
    (outside : index < 0 ∨ 16 ≤ index) (writable : index.natAbs < numeralLimit) :
    Defect op name (.fault (.invalidRegister .memoryAddress index))
  | unwritable {index : Int} (given : op.operands.lookup name = some index)
    (long : numeralLimit ≤ index.natAbs) : Defect op name .numeralTooLong

end Operation

inductive Dispatch
  | refuses (error : Error)
  | calls (handler : Handler) (state : State)

/-- A refusal leaves everything as it is; a call is left to the handler entirely. -/
def Dispatch.start (d : Dispatch) (op : Operation) (c : Context) :
    Option (Except Error Bool × Context) :=
  match d with
  | refuses error => some (.error error, c)
  | calls handler state => (handler op.operands).start { c with state }

namespace Registry

inductive Dispatches (r : Registry) (op : Operation) (s : State) : Dispatch → Prop
  | unbound (unbound : r.find? op.key = none) :
    Dispatches r op s (.refuses (.unboundKey op.key))
  | operand {handler : Handler} {before after : List String} {name : String} {e : Error}
    (bound : r.find? op.key = some handler) (split : op.registerNames = before ++ name :: after)
    (sound : ∀ name ∈ before, op.NamesRegister name) (defect : op.Defect name e) :
    Dispatches r op s (.refuses e)
  | pastEnd {handler : Handler} (bound : r.find? op.key = some handler)
    (sound : ∀ name ∈ op.registerNames, op.NamesRegister name) (beyond : 4096 < s.ip + op.size) :
    Dispatches r op s (.refuses (.fault (.advancePastEnd op.mnemonic s.ip)))
  | calls {handler : Handler} (bound : r.find? op.key = some handler)
    (sound : ∀ name ∈ op.registerNames, op.NamesRegister name) (fits : s.ip + op.size ≤ 4096) :
    Dispatches r op s (.calls handler (s.setRegister 0 ((s.ip + op.size) % 4294967296)))

def dispatch (r : Registry) (op : Operation) (s : State) : Dispatch :=
  match r.find? op.key with
  | none => .refuses (.unboundKey op.key)
  | some handler =>
    match op.advance s.ip with
    | .error e => .refuses e
    | .ok next => .calls handler (s.setIp next)

end Registry

variable {op : Operation} {s : State} {name : String}

namespace Operation

theorem NamesRegister.checkOperands_cons (names : op.NamesRegister name) (rest : List String) :
    checkOperands op.operands (name :: rest) = checkOperands op.operands rest := by
  obtain ⟨index, given, inside⟩ := names
  simp only [checkOperands, Operands.get, given, bind, Except.bind, checkRegister, inside,
    and_self, ↓reduceDIte]

theorem Defect.checkOperands_cons {e : Error} (defect : op.Defect name e) (rest : List String) :
    checkOperands op.operands (name :: rest) = .error e := by
  cases defect with
  | missing absent => simp only [checkOperands, Operands.get, absent, bind, Except.bind]
  | @outside index given outside writable =>
    have none : ¬ (0 ≤ index ∧ index < 16) := by omega
    have refused := checkRegister_writable none writable .memoryAddress
    simp only [checkOperands, Operands.get, given, bind, Except.bind, refused]
  | unwritable given long =>
    simp only [checkOperands, Operands.get, given, bind, Except.bind, checkRegister_unwritable long]

theorem namesRegister_or_defect (op : Operation) (name : String) :
    op.NamesRegister name ∨ ∃ e, op.Defect name e := by
  cases given : op.operands.lookup name with
  | none => exact .inr ⟨_, .missing given⟩
  | some index =>
    by_cases inside : 0 ≤ index ∧ index < 16
    · exact .inl ⟨index, given, inside⟩
    · rcases Nat.lt_or_ge index.natAbs numeralLimit with writable | long
      · exact .inr ⟨_, .outside given (by omega) writable⟩
      · exact .inr ⟨_, .unwritable given long⟩

theorem checkOperands_append {before : List String}
    (sound : ∀ name ∈ before, op.NamesRegister name) (rest : List String) :
    checkOperands op.operands (before ++ rest) = checkOperands op.operands rest := by
  induction before with
  | nil => rfl
  | cons name before ih =>
    rw [List.forall_mem_cons] at sound
    rw [List.cons_append, sound.1.checkOperands_cons, ih sound.2]

theorem exists_defect (op : Operation) (names : List String) :
    (∀ name ∈ names, op.NamesRegister name) ∨
      ∃ before name after e, names = before ++ name :: after ∧
        (∀ name ∈ before, op.NamesRegister name) ∧ op.Defect name e := by
  induction names with
  | nil => exact .inl (List.forall_mem_nil _)
  | cons name names ih =>
    rcases op.namesRegister_or_defect name with sound | ⟨e, defect⟩
    · rcases ih with all | ⟨before, name', after, e, split, earlier, defect⟩
      · exact .inl (List.forall_mem_cons.mpr ⟨sound, all⟩)
      · refine .inr ⟨name :: before, name', after, e, ?_, ?_, defect⟩
        · rw [split, List.cons_append]
        · exact List.forall_mem_cons.mpr ⟨sound, earlier⟩
    · exact .inr ⟨[], name, names, e, rfl, List.forall_mem_nil _, defect⟩

theorem advance_of_sound (sound : ∀ name ∈ op.registerNames, op.NamesRegister name) (ip : Int) :
    op.advance ip =
      if ip + op.size ≤ 4096 then .ok (ip + op.size)
      else .error (.fault (.advancePastEnd op.mnemonic ip)) := by
  have checked : checkOperands op.operands op.registerNames = .ok () := by
    have all := checkOperands_append sound []
    rwa [List.append_nil] at all
  rw [advance, checked]
  rfl

theorem advance_of_defect {before after : List String} {e : Error}
    (split : op.registerNames = before ++ name :: after)
    (sound : ∀ name ∈ before, op.NamesRegister name) (defect : op.Defect name e) (ip : Int) :
    op.advance ip = .error e := by
  rw [advance, split, checkOperands_append sound, defect.checkOperands_cons]
  rfl

end Operation

namespace Registry

variable {r : Registry} {d : Dispatch}

theorem Dispatches.dispatch_eq (dispatches : r.Dispatches op s d) : r.dispatch op s = d := by
  cases dispatches with
  | unbound unbound => simp only [dispatch, unbound]
  | operand bound split sound defect =>
    simp only [dispatch, bound, Operation.advance_of_defect split sound defect]
  | pastEnd bound sound beyond =>
    have past : ¬ s.ip + op.size ≤ 4096 := by omega
    simp only [dispatch, bound, Operation.advance_of_sound sound, past, ↓reduceIte]
  | calls bound sound fits =>
    simp only [dispatch, bound, Operation.advance_of_sound sound, fits, ↓reduceIte]
    rfl

theorem dispatches_dispatch (r : Registry) (op : Operation) (s : State) :
    r.Dispatches op s (r.dispatch op s) := by
  suffices some : ∃ d, r.Dispatches op s d by
    obtain ⟨d, dispatches⟩ := some
    rwa [dispatches.dispatch_eq]
  cases bound : r.find? op.key with
  | none => exact ⟨_, .unbound bound⟩
  | some handler =>
    rcases op.exists_defect op.registerNames with
      sound | ⟨before, name, after, e, split, sound, defect⟩
    · by_cases fits : s.ip + op.size ≤ 4096
      · exact ⟨_, .calls bound sound fits⟩
      · exact ⟨_, .pastEnd bound sound (by omega)⟩
    · exact ⟨_, .operand bound split sound defect⟩

theorem start_eq_dispatch (r : Registry) (op : Operation) (s : State) (sink : Sink) :
    (r.execute op).start ⟨s, sink⟩ = (r.dispatch op s).start op ⟨s, sink⟩ := by
  have got : Action.start (get : Action Context) ⟨s, sink⟩ = some (.ok ⟨s, sink⟩, ⟨s, sink⟩) := rfl
  rw [dispatch]
  cases bound : r.find? op.key with
  | none =>
    simp only [execute, bound]
    rfl
  | some handler =>
    simp only [execute, bound, Action.start_bind, got, Option.bind_some, Action.start_liftExcept]
    cases op.advance s.ip with
    | error e => rfl
    | ok next => rfl

/-- An operation has one dispatch on a state, by the rules, and its execution is that dispatch on
every sink. -/
theorem dispatch_protocol (r : Registry) (op : Operation) (s : State) :
    ∃ d, r.Dispatches op s d ∧ (∀ d', r.Dispatches op s d' → d' = d) ∧
      ∀ sink, (r.execute op).start ⟨s, sink⟩ = d.start op ⟨s, sink⟩ := by
  refine ⟨r.dispatch op s, r.dispatches_dispatch op s, ?_, r.start_eq_dispatch op s⟩
  intro d' dispatches
  exact dispatches.dispatch_eq.symm

/-- An operation whose only operand has too many digits to be told. -/
def longOperation : Operation where
  key := Opcode.out.key
  mnemonic := "out"
  size := 2
  registerNames := ["ri"]
  operands := [("ri", numeralLimit)]

theorem dispatch_longOperation :
    ¬ (0 ≤ (numeralLimit : Int) ∧ (numeralLimit : Int) < 16) ∧
      (standard.execute longOperation).start ⟨{}, {}⟩ ≠
        some (.error (.fault (.invalidRegister .memoryAddress numeralLimit)), ⟨{}, {}⟩) := by
  have bound : standard.find? longOperation.key = some Opcode.out.handler := find?_standard .out
  have defect : longOperation.Defect "ri" .numeralTooLong := .unwritable rfl le_natAbs_numeralLimit
  have refuses : standard.Dispatches longOperation {} (.refuses .numeralTooLong) :=
    .operand bound rfl (List.forall_mem_nil _) defect
  refine ⟨outside_of_long le_natAbs_numeralLimit, ?_⟩
  rw [start_eq_dispatch, refuses.dispatch_eq]
  rintro ⟨⟩

end Registry

end RegisterMachine
