import RegisterMachine.Opcode
import RegisterMachine.Operation

namespace RegisterMachine

inductive Instruction
  | moveIf (rd rs rc : UInt8)
  | store (ri rj : UInt8)
  | load (ri rj : UInt8)
  | loadImm (ri : UInt8) (imm : BitVec 16)
  | sub (rd ra rb : UInt8)
  | out (ri : UInt8)
  | exit
  | outNumber (ri : UInt8)
  deriving DecidableEq, Repr

namespace Instruction

def opcode : Instruction → Opcode
  | moveIf .. => .moveIf
  | store .. => .store
  | load .. => .load
  | loadImm .. => .loadImm
  | sub .. => .sub
  | out _ => .out
  | exit => .exit
  | outNumber _ => .outNumber

def size (i : Instruction) : Nat := i.opcode.size

def registers : Instruction → List UInt8
  | moveIf rd rs rc => [rd, rs, rc]
  | store ri rj => [ri, rj]
  | load ri rj => [ri, rj]
  | loadImm ri _ => [ri]
  | sub rd ra rb => [rd, ra, rb]
  | out ri => [ri]
  | exit => []
  | outNumber ri => [ri]

def value? : Instruction → Option Int
  | loadImm _ imm => some (toWord imm.toInt)
  | _ => none

def encode : Instruction → List UInt8
  | moveIf rd rs rc => [1, rd, rs, rc]
  | store ri rj => [2, ri, rj]
  | load ri rj => [3, ri, rj]
  | loadImm ri imm => [4, ri, imm.toNat.toUInt8, (imm.toNat / 256).toUInt8]
  | sub rd ra rb => [5, rd, ra, rb]
  | out ri => [6, ri]
  | exit => [7]
  | outNumber ri => [8, ri]

def ofOperandBytes? : Opcode → List UInt8 → Option Instruction
  | .moveIf, rd :: rs :: rc :: _ => some (.moveIf rd rs rc)
  | .store, ri :: rj :: _ => some (.store ri rj)
  | .load, ri :: rj :: _ => some (.load ri rj)
  | .loadImm, ri :: low :: high :: _ =>
    some (.loadImm ri (BitVec.ofNat 16 (low.toNat + 256 * high.toNat)))
  | .sub, rd :: ra :: rb :: _ => some (.sub rd ra rb)
  | .out, ri :: _ => some (.out ri)
  | .exit, _ => some .exit
  | .outNumber, ri :: _ => some (.outNumber ri)
  | _, _ => none

/-- The instruction at the head of `bytes`. An unknown code is reported before a lack of bytes. -/
def decode : List UInt8 → Except Error Instruction
  | [] => .error .truncatedWindow
  | code :: rest =>
    match Opcode.ofCode? code with
    | none => .error (.fault (.unknownOpcode code))
    | some op =>
      match ofOperandBytes? op rest with
      | some i => .ok i
      | none => .error .truncatedWindow

def operands (i : Instruction) : Operands :=
  i.opcode.registerNames.zip (i.registers.map fun r => (r.toNat : Int)) ++
    i.value?.toList.map (valueName, ·)

def toOperation (i : Instruction) : Operation where
  key := i.opcode.key
  mnemonic := i.opcode.mnemonic
  size := i.size
  code := i.opcode.code.toNat
  registerNames := i.opcode.registerNames
  operands := i.operands
  raw := i.encode

def text (i : Instruction) : String :=
  assemblyText i.opcode.mnemonic (i.registers.map fun r => (r.toNat : Int)) i.value?

theorem length_encode (i : Instruction) : i.encode.length = i.size := by
  cases i <;> rfl

theorem size_pos (i : Instruction) : 0 < i.size := i.opcode.size_pos

theorem get_registerNames (i : Instruction) :
    i.opcode.registerNames.map i.operands.get = i.registers.map fun r => .ok (r.toNat : Int) := by
  cases i <;> rfl

theorem lookup_valueName (i : Instruction) : i.operands.lookup valueName = i.value? := by
  cases i <;> rfl

theorem text_toOperation (i : Instruction) : i.toOperation.text = .ok i.text := by
  simp only [Operation.text, toOperation, Operands.mapM_getWritable i.get_registerNames,
    i.lookup_valueName]
  rfl

end Instruction

end RegisterMachine
