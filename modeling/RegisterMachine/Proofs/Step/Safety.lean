import RegisterMachine.Proofs.Output.Encoding
import RegisterMachine.Proofs.Session.Soundness
import RegisterMachine.Proofs.State.Access

namespace RegisterMachine

theorem length_characterBytes (code : Nat) :
    (characterBytes code).length = 1 ∨ (characterBytes code).length = 2 := by
  unfold characterBytes
  split
  · exact .inl rfl
  · exact .inr rfl

namespace Instruction

/-- What an instruction can offer to a sink: the bytes of a character, or those of a signed number
of 32 bits in decimal. -/
inductive Offers : Instruction → List UInt8 → Prop
  | out {ri : UInt8} {data : List UInt8} (length : data.length = 1 ∨ data.length = 2) :
    Offers (.out ri) data
  | outNumber {ri : UInt8} {x : Int} (lower : -2147483648 ≤ x) (upper : x < 2147483648) :
    Offers (.outNumber ri) (decimalBytes x)

/-- What an instruction can leave in a register: what was there, a word, or what another register
held once the pointer had moved on. -/
inductive Leaves (i : Instruction) (s : State) (j : Fin 16) (value : Int) : Prop
  | kept (same : value = s.registers.get j) : Leaves i s j value
  | word (lower : 0 ≤ value) (upper : value < 4294967296) : Leaves i s j value
  | copied {rd rs rc : UInt8} (moves : i = .moveIf rd rs rc) (bound : rs.toNat < 16)
    (copy : value = (s.past i).registers.get ⟨rs.toNat, bound⟩) : Leaves i s j value

variable {i : Instruction} {s : State}

theorem IsOutput.offers (output : i.IsOutput) (s : State) : i.Offers (i.payload s) := by
  cases i with
  | out ri => exact .out (length_characterBytes _)
  | outNumber ri =>
    obtain ⟨lower, upper⟩ := toSigned_bounds (s.operand ri)
    exact .outNumber lower upper
  | _ => cases output

end Instruction

end RegisterMachine
