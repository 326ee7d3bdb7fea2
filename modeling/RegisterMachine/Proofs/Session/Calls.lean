import RegisterMachine.Machine.Basic

namespace RegisterMachine

inductive Call
  | step
  | run
  | runFor (limit : Nat)
  | setRegister (index value : Int)
  | setTracing (on : Bool)

def Call.IsRun : Call → Prop
  | run => True
  | runFor _ => True
  | _ => False

/-- How a call ends, if it ends; `none` is the reply of a call that says nothing. -/
inductive Call.Ends (m : Machine) (sink : Sink) : Call → Outcome (Option Bool) → Prop
  | step {result : Except Error Bool} {m' : Machine} {sink' : Sink}
    (ended : m.step sink = some ⟨result, m', sink'⟩) :
    Ends m sink .step ⟨result.map some, m', sink'⟩
  | run {fuel : Nat} {result : Except Error Unit} {m' : Machine} {sink' : Sink}
    (ended : m.run fuel sink = some ⟨result, m', sink'⟩) :
    Ends m sink .run ⟨result.map fun _ => none, m', sink'⟩
  | runFor {limit : Nat} {result : Except Error Bool} {m' : Machine} {sink' : Sink}
    (ended : m.runFor limit sink = some ⟨result, m', sink'⟩) :
    Ends m sink (.runFor limit) ⟨result.map some, m', sink'⟩
  | setRegister (index value : Int) :
    Ends m sink (.setRegister index value) <|
      match m.setRegister index value with
      | .ok m' => ⟨.ok none, m', sink⟩
      | .error e => ⟨.error e, m, sink⟩
  | setTracing (on : Bool) :
    Ends m sink (.setTracing on) ⟨.ok none, { m with tracing := on }, sink⟩

inductive Session : Machine → Sink → List Call → List (Outcome (Option Bool)) → Prop
  | nil {m : Machine} {sink : Sink} : Session m sink [] []
  | cons {m : Machine} {sink : Sink} {c : Call} {calls : List Call}
    {o : Outcome (Option Bool)} {outcomes : List (Outcome (Option Bool))}
    (ended : c.Ends m sink o) (rest : Session o.machine o.sink calls outcomes) :
    Session m sink (c :: calls) (o :: outcomes)

end RegisterMachine
