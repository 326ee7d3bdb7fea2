import RegisterMachine.Handlers
import RegisterMachine.Image
import RegisterMachine.Listing
import RegisterMachine.Machine.Trace

namespace RegisterMachine

inductive LogEntry
  | executed (step : Nat) (ip : Int) (instruction : Instruction)
  | failed (step : Nat) (ip : Int) (fault : Fault)
  | ended (steps : Nat)
  deriving DecidableEq, Repr

def LogEntry.text : LogEntry → String
  | executed step ip instruction => s!"step {step} at {addressText ip}: {instruction.text}"
  | failed step ip fault => s!"step {step} at {addressText ip} failed: {fault.report}"
  | ended steps => s!"program exited after {steps} steps"

structure Machine where
  state : State := {}
  /-- The number of steps executed without a failure. -/
  steps : Nat := 0
  /-- Whether executed steps are added to the trace. -/
  tracing : Bool := false
  trace : Trace := {}
  logging : Bool := false
  log : Array LogEntry := #[]

structure Outcome (α : Type) where
  result : Except Error α
  machine : Machine
  sink : Sink

def defaultTraceLimit : Int := 10000

namespace Machine

/-- A machine with an image loaded. The image is converted first, then its size is checked, then the
limit of the trace; no limit keeps all records. -/
def create (image : Image) (tracing : Bool := false)
    (traceLimit? : Option Int := some defaultTraceLimit) : Except Error Machine := do
  let bytes ← image.toBytes.mapError .image
  let state ← State.ofImage bytes
  match traceLimit? with
  | none => return { state, tracing, trace := { limit := none } }
  | some limit =>
    if !isCountable limit then throw .traceLimitTooLarge
    if limit < 0 then throw .negativeTraceLimit
    return { state, tracing, trace := { limit := some limit.toNat } }

def ip (m : Machine) : Int := m.state.ip

def register (m : Machine) (index : Int) : Except Error Int := do
  let i ← checkRegister index .registerIndex
  return m.state.registers.get i

def setRegister (m : Machine) (index value : Int) : Except Error Machine := do
  let i ← checkRegister index .registerIndex
  return { m with state := m.state.setRegister i (toWord value) }

def logFailure (m : Machine) (ip : Int) : Error → Machine
  | .fault f => if m.logging then { m with log := m.log.push (.failed m.steps ip f) } else m
  | _ => m

def recordStep (m : Machine) (ip : Int) (i : Instruction) (before : Registers) (ends : Bool) :
    Machine :=
  let record : StepRecord :=
    { step := m.steps, ip, instruction := i, before, after := m.state.registers, ends }
  { m with
    steps := m.steps + 1
    trace := if m.tracing then m.trace.push record else m.trace
    log :=
      if m.logging then
        let log := m.log.push (.executed m.steps ip i)
        if ends then log.push (.ended (m.steps + 1)) else log
      else m.log }

/-- Executes the instruction at the instruction pointer; the value says whether it ended the
program. `none` says that the sink never lets the step end. -/
def step (m : Machine) (sink : Sink) : Option (Outcome Bool) :=
  let ip := m.ip
  match instructionAt m.state.memory.toArray ip with
  | .error e => some ⟨.error e, m.logFailure ip e, sink⟩
  | .ok i =>
    match (Registry.standard.execute i.toOperation).start ⟨m.state, sink⟩ with
    | none => none
    | some (.error e, c) => some ⟨.error e, { m with state := c.state }.logFailure ip e, c.sink⟩
    | some (.ok ends, c) =>
      some ⟨.ok ends, { m with state := c.state }.recordStep ip i m.state.registers ends, c.sink⟩

def runFor : Nat → Machine → Sink → Option (Outcome Bool)
  | 0, m, sink => some ⟨.ok false, m, sink⟩
  | n + 1, m, sink =>
    match m.step sink with
    | some ⟨.ok false, m, sink⟩ => runFor n m sink
    | outcome => outcome

def runBounded (bound : Int) (m : Machine) (sink : Sink) : Option (Outcome Bool) :=
  m.runFor bound.toNat sink

/-- Runs until the program ends or a step fails; `none` if neither happens within `fuel` steps. -/
def run (fuel : Nat) (m : Machine) (sink : Sink) : Option (Outcome Unit) :=
  match m.runFor fuel sink with
  | some ⟨.ok true, m, sink⟩ => some ⟨.ok (), m, sink⟩
  | some ⟨.error e, m, sink⟩ => some ⟨.error e, m, sink⟩
  | _ => none

end Machine

end RegisterMachine
