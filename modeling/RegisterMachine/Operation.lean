import RegisterMachine.Error
import RegisterMachine.Word

namespace RegisterMachine

abbrev Operands := List (String × Int)

def Operands.get (operands : Operands) (name : String) : Except Error Int :=
  match operands.lookup name with
  | some value => .ok value
  | none => .error (.missingOperand name)

structure Operation where
  key : String
  mnemonic : String
  size : Int
  code : Int := 0
  registerNames : List String := []
  operands : Operands := []
  raw : List UInt8 := []
  deriving DecidableEq, Repr

def valueName : String := "value"

def assemblyText (mnemonic : String) (registers : List Int) (value? : Option Int) : String :=
  let operands := registers.map (fun r => s!"r{r}") ++
    value?.toList.map fun value => s!"{toSigned value}"
  if operands.isEmpty then mnemonic else s!"{mnemonic} " ++ ", ".intercalate operands

def Operands.getWritable (operands : Operands) (name : String) : Except Error Int := do
  let index ← operands.get name
  if isWritable index then return index else throw .numeralTooLong

theorem Operands.mapM_getWritable {operands : Operands} {names : List String} {bytes : List UInt8}
    (named : names.map operands.get = bytes.map fun b => .ok (b.toNat : Int)) :
    names.mapM operands.getWritable = .ok (bytes.map fun b => (b.toNat : Int)) := by
  induction names generalizing bytes with
  | nil =>
    cases bytes with
    | nil => rfl
    | cons b bytes => cases named
  | cons name names ih =>
    cases bytes with
    | nil => cases named
    | cons b bytes =>
      simp only [List.map_cons, List.cons.injEq] at named
      simp only [List.mapM_cons, getWritable, named.1, ih named.2, isWritable_byte, bind,
        Except.bind, pure, Except.pure, ↓reduceIte, List.map_cons]

/-- The text of an operation; it fails at the first register operand that is missing or cannot be
written. -/
def Operation.text (op : Operation) : Except Error String := do
  let registers ← op.registerNames.mapM op.operands.getWritable
  return assemblyText op.mnemonic registers (op.operands.lookup valueName)

end RegisterMachine
