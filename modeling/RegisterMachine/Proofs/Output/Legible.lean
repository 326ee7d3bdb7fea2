import RegisterMachine.Proofs.Output.Decimals
import RegisterMachine.Proofs.Output.Runs
import RegisterMachine.Proofs.Step.Record

namespace RegisterMachine

inductive Instruction.Prints (s : State) : Instruction → List Char → Prop
  | character {r : UInt8} {c : Char} (code : (c.toNat : Int) = s.operand r % 256) :
    Prints s (.out r) [c]
  | number {r : UInt8} {text : List Char} (numeral : WordNumeral (s.operand r) text) :
    Prints s (.outNumber r) text
  | nothing {i : Instruction} (silent : ¬ i.IsOutput) : Prints s i []

structure Decodes (bytes : List UInt8) (text : List Char) : Prop where
  valid : bytes.toByteArray.validateUTF8 = true
  decoded : bytes.toByteArray.utf8Decode? = some text.toArray

namespace Machine

inductive Takes : Machine → Sink → Machine → Sink → Prop
  | nil {m : Machine} {sink : Sink} : Takes m sink m sink
  | cons {m m' : Machine} {sink sink' : Sink} {o : Outcome Bool} (stepped : m.step sink = some o)
    (rest : Takes o.machine o.sink m' sink') : Takes m sink m' sink'

inductive Speaks : Machine → Sink → List Char → Machine → Sink → Prop
  | nil {m : Machine} {sink : Sink} : Speaks m sink [] m sink
  | printed {m m' m'' : Machine} {sink sink' sink'' : Sink} {i : Instruction} {ends : Bool}
    {text later : List Char} (pending : m.state.pending = .ok i)
    (prints : i.Prints (m.state.past i) text) (stepped : m.step sink = some ⟨.ok ends, m', sink'⟩)
    (rest : Speaks m' sink' later m'' sink'') : Speaks m sink (text ++ later) m'' sink''
  | failed {m m' m'' : Machine} {sink sink' sink'' : Sink} {e : Error} {later : List Char}
    (stepped : m.step sink = some ⟨.error e, m', sink'⟩)
    (rest : Speaks m' sink' later m'' sink'') : Speaks m sink later m'' sink''

/-- The output of the runs of a machine is a text: steps print something, and whatever they print is
what the bytes that they add to the sink are the encoding of. -/
structure Legible (m : Machine) (sink : Sink) : Prop where
  decodes : ∀ text m' sink', m.Speaks sink text m' sink' →
    ∃ bytes, sink'.kept.toList = sink.kept.toList ++ bytes ∧ Decodes bytes text
  bounded : ∀ n, ∃ o text, m.runFor n sink = some o ∧ m.Speaks sink text o.machine o.sink
  unbounded : ∀ fuel o, m.run fuel sink = some o → ∃ text, m.Speaks sink text o.machine o.sink
  stepwise : ∀ m' sink', m.Takes sink m' sink' → ∃ text, m.Speaks sink text m' sink'

end Machine

theorem decodes_textBytes (text : List Char) : Decodes (textBytes text) text where
  valid := ByteArray.validateUTF8_eq_true_iff.mpr ByteArray.isValidUTF8_utf8Encode
  decoded := List.utf8Decode?_utf8Encode

theorem textBytes_append (first second : List Char) :
    textBytes (first ++ second) = textBytes first ++ textBytes second := List.flatMap_append

namespace Instruction

variable {i : Instruction} {s : State} {text : List Char}

theorem exists_prints (i : Instruction) (wf : s.WellFormed) : ∃ text, i.Prints s text := by
  cases i with
  | out r =>
    refine ⟨[outputChar (s.operand r)], .character ?_⟩
    rw [outputChar_toNat]
    omega
  | outNumber r =>
    obtain ⟨lower, upper⟩ := wf.operand r
    exact ⟨_, .number (wordNumeral_outputNumber lower upper)⟩
  | _ => exact ⟨[], .nothing id⟩

theorem Prints.payload_eq (prints : i.Prints s text) (wf : s.WellFormed) :
    i.payload s = textBytes text := by
  cases prints with
  | @character r c code =>
    have same : outputChar (s.operand r) = c := by
      rw [← Char.toNat_inj, outputChar_toNat]
      omega
    rw [payload, ← same, textBytes_outputChar]
  | @number r _ numeral =>
    obtain ⟨lower, upper⟩ := wf.operand r
    rw [payload, (wordNumeral_iff lower upper).mp numeral, outputNumber, textBytes_toString]
  | nothing silent =>
    cases i with
    | out r => exact absurd trivial silent
    | outNumber r => exact absurd trivial silent
    | _ => rfl

end Instruction

namespace Machine

variable {m m' : Machine} {sink sink' : Sink}

theorem wellFormed_of_step {o : Outcome Bool} (stepped : m.step sink = some o)
    (wf : m.state.WellFormed) : o.machine.state.WellFormed := by
  rw [state_of_step stepped]
  exact wf.next

theorem Takes.exists_speaks (takes : m.Takes sink m' sink') (wf : m.state.WellFormed) :
    ∃ text, m.Speaks sink text m' sink' := by
  induction takes with
  | nil => exact ⟨[], .nil⟩
  | cons stepped _ ih =>
    obtain ⟨later, speaks⟩ := ih (wellFormed_of_step stepped wf)
    cases books_of_step stepped with
    | failed => exact ⟨later, .failed stepped speaks⟩
    | @executed i _ _ _ pending =>
      obtain ⟨text, prints⟩ := i.exists_prints (wf.past i)
      exact ⟨text ++ later, .printed pending prints stepped speaks⟩

theorem Speaks.kept_eq {text : List Char} (speaks : m.Speaks sink text m' sink')
    (wf : m.state.WellFormed) (accepts : sink.Always Act.Accepts) :
    sink'.kept.toList = sink.kept.toList ++ textBytes text := by
  induction speaks with
  | nil => simp [textBytes]
  | printed pending prints stepped _ ih =>
    obtain ⟨accepts', kept, -⟩ := sink_of_accepts accepts stepped
    rw [State.payload_of_pending pending, prints.payload_eq (wf.past _)] at kept
    rw [ih (wellFormed_of_step stepped wf) accepts', kept, textBytes_append, List.append_assoc]
  | @failed _ _ _ sink next _ _ _ stepped _ ih =>
    -- No delivery to an accepting sink fails, so a step that fails has not delivered anything.
    obtain ⟨accepts', -, unchanged⟩ := sink_of_accepts accepts stepped
    have same : next = sink := unchanged _ rfl
    rw [ih (wellFormed_of_step stepped wf) accepts', same]

theorem runFor_takes (n : Nat) {o : Outcome Bool} (ran : m.runFor n sink = some o) :
    m.Takes sink o.machine o.sink := by
  induction n generalizing m sink with
  | zero =>
    cases ran
    exact .nil
  | succ n ih =>
    rw [runFor] at ran
    split at ran
    · rename_i m' sink' stepped
      exact .cons stepped (ih ran)
    · exact .cons ran .nil

theorem run_takes {fuel : Nat} {o : Outcome Unit} (ran : m.run fuel sink = some o) :
    m.Takes sink o.machine o.sink := by
  rcases run_eq_some_iff.mp ran with ⟨bounded, -⟩ | ⟨_, bounded, -⟩
  · exact runFor_takes fuel bounded
  · exact runFor_takes fuel bounded

theorem legible (wf : m.state.WellFormed) (accepts : sink.Always Act.Accepts) :
    m.Legible sink where
  decodes text m' sink' speaks :=
    ⟨textBytes text, speaks.kept_eq wf accepts, decodes_textBytes text⟩
  bounded n := by
    obtain ⟨o, ran, -⟩ := runFor_written n m (accepts.mono fun _ => Act.Accepts.counts)
    obtain ⟨text, speaks⟩ := (runFor_takes n ran).exists_speaks wf
    exact ⟨o, text, ran, speaks⟩
  unbounded fuel o ran := (run_takes ran).exists_speaks wf
  stepwise m' sink' takes := takes.exists_speaks wf

end Machine

/-- The output of runs is a text, in which each word has one numeral and can be read back from
it. -/
theorem output_legible :
    (∀ (m : Machine) (sink : Sink), m.state.WellFormed → sink.Always Act.Accepts →
      m.Legible sink) ∧
    ∀ v : Int, 0 ≤ v → v < 4294967296 →
      (∀ text, WordNumeral v text ↔ text = (outputNumber v).toList) ∧
      (∃ x, readInteger? (outputNumber v) = some x ∧ x % 4294967296 = v) ∧
      ∀ w : Int, 0 ≤ w → w < 4294967296 → outputNumber v = outputNumber w → v = w := by
  have read {v : Int} (lower : 0 ≤ v) (upper : v < 4294967296) :
      readInteger? (outputNumber v) = some (toSigned v) := by
    have numeral := readInteger?_numeral lower upper (wordNumeral_outputNumber lower upper)
    rwa [String.ofList_toList] at numeral
  refine ⟨fun m sink wf accepts => Machine.legible wf accepts, ?_⟩
  intro v lower upper
  refine ⟨fun text => wordNumeral_iff lower upper, ?_, ?_⟩
  · exact ⟨toSigned v, read lower upper, toSigned_emod lower upper⟩
  · intro w lower' upper' same
    have views := read lower upper
    rw [same, read lower' upper', Option.some.injEq] at views
    exact ((toSigned_inj lower' upper' lower upper).mp views).symm

theorem output_legible_printer :
    let m : Machine := { state := printer }
    m.state.WellFormed ∧ ({} : Sink).Always Act.Accepts ∧
      (∃ o text, m.runFor 1 {} = some o ∧ m.Speaks {} text o.machine o.sink) ∧
      (∃ x, readInteger? (outputNumber 2147483648) = some x ∧ x % 4294967296 = 2147483648) ∧
      outputNumber 7 ≠ outputNumber 8 := by
  intro m
  have wf : m.state.WellFormed := State.wellFormed_reset _
  have legible := output_legible.1 m {} wf Sink.accepts_empty
  have lowest := output_legible.2 2147483648 (by decide) (by decide)
  have apart := (output_legible.2 7 (by decide) (by decide)).2.2 8 (by decide) (by decide)
  exact ⟨wf, Sink.accepts_empty, legible.bounded 1, lowest.2.1, fun same => by cases apart same⟩

end RegisterMachine
