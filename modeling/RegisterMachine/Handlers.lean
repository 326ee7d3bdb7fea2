import RegisterMachine.Instruction
import RegisterMachine.Registry

namespace RegisterMachine

def textBytes (text : List Char) : List UInt8 := text.flatMap String.utf8EncodeChar

def outputChar (value : Int) : Char := Char.ofNat (value % 256).toNat

def outputNumber (value : Int) : String := toString (toSigned value)

namespace Handler

open RegisterMachine.Action

def moveIf : Handler := fun operands => do
  if (← registerOperand operands "rc") ≠ 0 then
    let value ← registerOperand operands "rs"
    assignSlot (← operand operands "rd") value
  return false

def store : Handler := fun operands => do
  let address ← registerOperand operands "ri"
  let value ← registerOperand operands "rj"
  storeWord address value
  return false

def load : Handler := fun operands => do
  let value ← loadWord (← registerOperand operands "rj")
  assignSlot (← operand operands "ri") value
  return false

def loadImm : Handler := fun operands => do
  let value ← operand operands valueName
  assignSlot (← operand operands "ri") value
  return false

def sub : Handler := fun operands => do
  let a ← registerOperand operands "ra"
  let b ← registerOperand operands "rb"
  assignSlot (← operand operands "rd") (toWord (a - b))
  return false

def out : Handler := fun operands => do
  emit (textBytes [outputChar (← registerOperand operands "ri")])
  return false

def outNumber : Handler := fun operands => do
  emit (textBytes (outputNumber (← registerOperand operands "ri")).toList)
  return false

def exit : Handler := fun _ => return true

end Handler

def Opcode.handler : Opcode → Handler
  | moveIf => Handler.moveIf
  | store => Handler.store
  | load => Handler.load
  | loadImm => Handler.loadImm
  | sub => Handler.sub
  | out => Handler.out
  | exit => Handler.exit
  | outNumber => Handler.outNumber

def Registry.standard : Registry where
  bindings := Opcode.all.map fun op => (op.key, op.handler)
  frozen := true

theorem Registry.find?_standard (op : Opcode) :
    Registry.standard.find? op.key = some op.handler := by
  cases op <;> rfl

end RegisterMachine
