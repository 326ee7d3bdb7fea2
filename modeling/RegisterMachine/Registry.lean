import RegisterMachine.Action

namespace RegisterMachine

structure Registry where
  bindings : List (String × Handler) := []
  frozen : Bool := false

namespace Registry

def find? (r : Registry) (key : String) : Option Handler := r.bindings.lookup key

/-- Binds a key. That the registry is frozen is reported before that the key is bound. -/
def register (r : Registry) (key : String) (handler : Handler) : Except Error Registry :=
  if r.frozen then .error .registryFrozen
  else if (r.find? key).isSome then .error (.alreadyBound key)
  else .ok { r with bindings := r.bindings ++ [(key, handler)] }

def freeze (r : Registry) : Registry := { r with frozen := true }

def keys (r : Registry) : List String := (r.bindings.map Prod.fst).mergeSort

end Registry

def checkOperands (operands : Operands) : List String → Except Error Unit
  | [] => .ok ()
  | name :: names => do
    let index ← operands.get name
    let _ ← checkRegister index
    checkOperands operands names

/-- Where an operation at `ip` leaves the instruction pointer, once its operands and its advance
have been checked. -/
def Operation.advance (op : Operation) (ip : Int) : Except Error Int := do
  checkOperands op.operands op.registerNames
  if ip + op.size ≤ 4096 then return ip + op.size
  else throw (.fault (.advancePastEnd op.mnemonic ip))

def Registry.execute (r : Registry) (op : Operation) : Action Bool := do
  match r.find? op.key with
  | none => throw (.unboundKey op.key)
  | some handler =>
    let next ← liftExcept (op.advance (← get).state.ip)
    Action.setIp next
    handler op.operands

end RegisterMachine
