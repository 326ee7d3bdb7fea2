import RegisterMachine.Error

namespace RegisterMachine

inductive Act
  | all
  /-- Keeps at most `count` bytes and says that it took `count`, whatever was offered. -/
  | accept (count : Int)
  | block
  | refuse (refusal : Refusal)
  /-- Keeps all bytes as long as no more than `capacity` are kept, and refuses otherwise. -/
  | within (capacity : Nat) (refusal : Refusal)
  deriving DecidableEq, Repr

inductive Acknowledgement
  | took (count : Int)
  | blocked
  | refused (refusal : Refusal)
  deriving DecidableEq, Repr

/-- The acknowledgement of an act, and how many of the `offered` bytes it keeps when the sink
holds `held` bytes. -/
def Act.answer (held offered : Nat) : Act → Acknowledgement × Nat
  | all => (.took offered, offered)
  | accept count => (.took count, count.toNat)
  | block => (.blocked, 0)
  | refuse refusal => (.refused refusal, 0)
  | within capacity refusal =>
    if held + offered ≤ capacity then (.took offered, offered) else (.refused refusal, 0)

/-- A sink with the acts to come, the bytes kept so far and the lengths offered to it so far. -/
structure Sink where
  script : List Act := []
  thereafter : Act := .all
  kept : Array UInt8 := #[]
  offered : Array Nat := #[]
  deriving DecidableEq, Repr

namespace Sink

def write (s : Sink) (data : List UInt8) : Acknowledgement × Sink :=
  let act := s.script.head?.getD s.thereafter
  let (reply, count) := act.answer s.kept.size data.length
  (reply, { s with
    script := s.script.tail
    kept := s.kept ++ data.take count
    offered := s.offered.push data.length })

/-- What remains to be offered after a sink took `count` bytes. A negative count leaves that many
bytes from the end, or all of them if there are fewer. -/
def remainder (count : Int) (data : List UInt8) : List UInt8 :=
  if 0 ≤ count then data.drop count.toNat else data.drop (data.length - count.natAbs)

def deliverWithin : Nat → Sink → List UInt8 → Option (Except Error Unit × Sink)
  | _, s, [] => some (.ok (), s)
  | 0, _, _ :: _ => none
  | budget + 1, s, data@(_ :: _) =>
    match s.write data with
    | (.refused refusal, s) =>
      if refusal.isWriteFault then
        some (.error (.fault (.writeRefused data.length refusal)), s)
      else some (.error (.refused refusal), s)
    | (.blocked, s) => some (.error (.fault (.writeStalled data.length)), s)
    | (.took count, s) =>
      if count = 0 then some (.error (.fault (.writeStalled data.length)), s)
      else deliverWithin budget s (remainder count data)

/-- Delivers all of `data`, or fails. The budget is one write for each act of the script and one for
each byte. Delivery that needs more never ends, because its sink takes a negative count for ever:
each write of another act that does not fail takes at least one byte. So `none` says that delivery
never ends. -/
def deliver (s : Sink) (data : List UInt8) : Option (Except Error Unit × Sink) :=
  deliverWithin (s.script.length + data.length) s data

end Sink

end RegisterMachine
