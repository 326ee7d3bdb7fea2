import RegisterMachine.Machine.Basic

namespace RegisterMachine

structure Summary where
  steps : Nat
  ip : Int
  registers : List Int
  signed : List Int
  deriving DecidableEq, Repr

namespace Summary

def registersText (s : Summary) : String :=
  let shown := s.signed.zipIdx.filter fun (value, _) => value ≠ 0
  if shown.isEmpty then "(all zero)"
  else " ".intercalate (shown.map fun (value, i) => s!"r{i}={value}")

def lines (s : Summary) : List String :=
  [s!"Steps: {s.steps}", s!"Registers: {s.registersText}"]

end Summary

namespace Machine

def summary (m : Machine) : Summary where
  steps := m.steps
  ip := m.ip
  registers := m.state.registers.toList
  signed := m.state.registers.toList.map toSigned

def text (m : Machine) : String := s!"[Step {m.steps}] {m.state.text}"

end Machine

end RegisterMachine
