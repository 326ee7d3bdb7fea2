import RegisterMachine.Operation
import RegisterMachine.Sink
import RegisterMachine.State

namespace RegisterMachine

structure Context where
  state : State
  sink : Sink

abbrev Action := ExceptT Error (StateT Context Option)

namespace Action

def start {α : Type} (a : Action α) (c : Context) : Option (Except Error α × Context) :=
  a.run.run c

theorem start_pure {α : Type} (a : α) (c : Context) :
    start (pure a) c = some (.ok a, c) := rfl

theorem start_bind {α β : Type} (x : Action α) (f : α → Action β) (c : Context) :
    start (x >>= f) c = (start x c).bind fun
      | (.ok a, c) => start (f a) c
      | (.error e, c) => some (.error e, c) := by
  simp only [start, ExceptT.run_bind, StateT.run_bind]
  show Option.bind _ _ = Option.bind _ _
  congr 1
  funext ⟨r, c⟩
  cases r <;> rfl

theorem start_liftExcept {α : Type} (x : Except Error α) (c : Context) :
    start (liftExcept x) c = some (x, c) := by
  cases x <;> rfl

def readSlot (place : Int) : Action Int := do
  let i ← liftExcept (findSlot place .noSlotToRead)
  return (← get).state.registers.get i

/-- Assigns a register by its place in the file; the value is kept as it is. -/
def assignSlot (place value : Int) : Action Unit := do
  let i ← liftExcept (findSlot place .noSlotToAssign)
  modify fun c => { c with state := c.state.setRegister i value }

def loadWord (address : Int) : Action Int := do
  let span ← liftExcept (checkSpan address 4)
  return (← get).state.wordAt span

def storeWord (address value : Int) : Action Unit := do
  let span ← liftExcept (checkSpan address 4)
  modify fun c => { c with state := c.state.setWordAt span value }

def emit (data : List UInt8) : Action Unit :=
  ExceptT.mk fun ⟨state, sink⟩ =>
    (sink.deliver data).map fun (result, sink) => (result, ⟨state, sink⟩)

def setIp (value : Int) : Action Unit :=
  modify fun c => { c with state := c.state.setIp value }

def operand (operands : Operands) (name : String) : Action Int :=
  liftExcept (operands.get name)

def registerOperand (operands : Operands) (name : String) : Action Int := do
  readSlot (← operand operands name)

end Action

/-- What is bound to the key of an operation: it receives the operands and says whether the
program ends. -/
abbrev Handler := Operands → Action Bool

end RegisterMachine
