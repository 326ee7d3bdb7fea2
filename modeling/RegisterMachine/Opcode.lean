namespace RegisterMachine

inductive Opcode
  | moveIf
  | store
  | load
  | loadImm
  | sub
  | out
  | exit
  | outNumber
  deriving DecidableEq, Repr

namespace Opcode

def all : List Opcode := [moveIf, store, load, loadImm, sub, out, exit, outNumber]

def code : Opcode → UInt8
  | moveIf => 1
  | store => 2
  | load => 3
  | loadImm => 4
  | sub => 5
  | out => 6
  | exit => 7
  | outNumber => 8

def ofCode? (code : UInt8) : Option Opcode := all.find? (·.code = code)

def key : Opcode → String
  | moveIf => "OP_MOVE_IF"
  | store => "OP_STORE"
  | load => "OP_LOAD"
  | loadImm => "OP_LOAD_IMM"
  | sub => "OP_SUB"
  | out => "OP_OUT"
  | exit => "OP_EXIT"
  | outNumber => "OP_OUT_NUMBER"

def mnemonic : Opcode → String
  | moveIf => "movif"
  | store => "store"
  | load => "load"
  | loadImm => "loadimm"
  | sub => "sub"
  | out => "out"
  | exit => "exit"
  | outNumber => "outnum"

def size : Opcode → Nat
  | moveIf => 4
  | store => 3
  | load => 3
  | loadImm => 4
  | sub => 4
  | out => 2
  | exit => 1
  | outNumber => 2

def registerNames : Opcode → List String
  | moveIf => ["rd", "rs", "rc"]
  | store => ["ri", "rj"]
  | load => ["ri", "rj"]
  | loadImm => ["ri"]
  | sub => ["rd", "ra", "rb"]
  | out => ["ri"]
  | exit => []
  | outNumber => ["ri"]

theorem ofCode?_code (op : Opcode) : ofCode? op.code = some op := by
  cases op <;> rfl

theorem code_of_ofCode? {b : UInt8} {op : Opcode} (h : ofCode? b = some op) : op.code = b := by
  simpa using List.find?_some h

theorem size_pos (op : Opcode) : 0 < op.size := by
  cases op <;> decide

end Opcode

end RegisterMachine
