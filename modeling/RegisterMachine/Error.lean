import RegisterMachine.Text.Numeral

namespace RegisterMachine

inductive FaultKind
  | general
  | memoryOverflow
  | registerIndex
  | write
  | unknownInstruction
  | memoryAddress
  deriving DecidableEq, Repr

namespace FaultKind

def name : FaultKind → String
  | general => "VMError"
  | memoryOverflow => "MemoryOverflow"
  | registerIndex => "RegIndexOutOfRange"
  | write => "WriteError"
  | unknownInstruction => "UnknownInstruction"
  | memoryAddress => "MemAddressOutOfRange"

end FaultKind

inductive RefusalOrigin
  | device
  | brokenPipe
  | closedStream
  | sinkState
  | sinkType
  deriving DecidableEq, Repr

/-- The failure that a sink raises instead of taking bytes. -/
structure Refusal where
  origin : RefusalOrigin
  message : String
  deriving DecidableEq, Repr

/-- Whether the machine reports a refusal as a write fault of its own; any other refusal passes
through it unchanged. -/
def Refusal.isWriteFault (r : Refusal) : Bool :=
  match r.origin with
  | .device | .brokenPipe | .closedStream => true
  | .sinkState | .sinkType => false

inductive Fault
  | imageTooLarge (size : Nat)
  | invalidRegister (kind : FaultKind) (index : Int)
  | spanOutside (address length : Int)
  | pastEnd (ip : Int)
  | unknownOpcode (opcode : UInt8)
  | advancePastEnd (mnemonic : String) (ip : Int)
  | writeRefused (offered : Nat) (refusal : Refusal)
  | writeStalled (offered : Nat)
  | outputUnavailable (path reason : String)
  | flushFailed (reason : String)
  deriving DecidableEq, Repr

namespace Fault

def kind : Fault → FaultKind
  | imageTooLarge _ => .memoryOverflow
  | invalidRegister kind _ => kind
  | spanOutside .. => .memoryAddress
  | pastEnd _ => .unknownInstruction
  | unknownOpcode _ => .unknownInstruction
  | advancePastEnd .. => .memoryAddress
  | writeRefused .. => .write
  | writeStalled _ => .write
  | outputUnavailable .. => .write
  | flushFailed _ => .write

def message : Fault → String
  | imageTooLarge size => s!"Image of {size} bytes does not fit in 4096 bytes of memory"
  | invalidRegister _ index => s!"Invalid register index: {index}"
  | spanOutside address length =>
    s!"Access of {length} bytes at {addressText address} exceeds memory size 4096"
  | pastEnd ip => s!"No instruction at {addressText ip}: past the end of memory"
  | unknownOpcode opcode => s!"Unknown opcode: {hexNumeral 4 opcode.toNat}"
  | advancePastEnd mnemonic ip =>
    s!"{mnemonic} at {addressText ip} runs past the end of memory"
  | writeRefused offered refusal => s!"Output sink rejected {offered} bytes: {refusal.message}"
  | writeStalled offered => s!"Output sink accepted none of {offered} bytes"
  | outputUnavailable path reason => s!"cannot open output {path}: {reason}"
  | flushFailed reason => s!"flushing output failed: {reason}"

def cause? : Fault → Option Refusal
  | writeRefused _ refusal => some refusal
  | _ => none

def report (f : Fault) : String := s!"{f.kind.name}: {f.message}"

end Fault

inductive ValueKind
  | integer
  | truth
  | real
  | text
  | nothing
  | sequence
  | mapping
  deriving DecidableEq, Repr

def ValueKind.name : ValueKind → String
  | integer => "int"
  | truth => "bool"
  | real => "float"
  | text => "str"
  | nothing => "NoneType"
  | sequence => "list"
  | mapping => "dict"

inductive ImageError
  | number (kind : ValueKind)
  | unencodedText
  | notBytes (kind : ValueKind)
  | itemKind (kind : ValueKind)
  | itemRange
  /-- A value without a length, where an image is to be stored. -/
  | unsized (kind : ValueKind)
  | storedText
  | storedRange
  /-- A value without items, where a window is to be read. -/
  | noItems (kind : ValueKind)
  deriving DecidableEq, Repr

def ImageError.message : ImageError → String
  | number kind => s!"image must be bytes-like or an iterable of ints, not {kind.name}"
  | unencodedText => "string argument without an encoding"
  | notBytes kind => s!"cannot convert '{kind.name}' object to bytes"
  | itemKind kind => s!"'{kind.name}' object cannot be interpreted as an integer"
  | itemRange => "bytes must be in range(0, 256)"
  | unsized kind => s!"object of type '{kind.name}' has no len()"
  | storedText => "can assign only bytes, buffers, or iterables of ints in range(0, 256)"
  | storedRange => "byte must be in range(0, 256)"
  | noItems kind => s!"'{kind.name}' object is not subscriptable"

inductive Error
  | fault (fault : Fault)
  | refused (refusal : Refusal)
  | truncatedWindow
  | unboundKey (key : String)
  | missingOperand (name : String)
  | noSlotToRead
  | noSlotToAssign
  | placeTooLarge
  /-- A number that a message should give has too many digits to be written. -/
  | numeralTooLong
  | registryFrozen
  | alreadyBound (key : String)
  | image (error : ImageError)
  | negativeTraceLimit
  | traceLimitTooLarge
  deriving DecidableEq, Repr

def Error.message : Error → String
  | fault f => f.message
  | refused r => r.message
  | truncatedWindow => "index out of range"
  | unboundKey key => s!"Unknown operation key: {key}"
  | missingOperand name => name
  | noSlotToRead => "list index out of range"
  | noSlotToAssign => "list assignment index out of range"
  | placeTooLarge => "cannot fit 'int' into an index-sized integer"
  | numeralTooLong =>
    "Exceeds the limit (4300 digits) for integer string conversion; " ++
      "use sys.set_int_max_str_digits() to increase the limit"
  | registryFrozen => "Cannot register handlers: registry is frozen"
  | alreadyBound key => s!"Handler already registered: {key}"
  | image e => e.message
  | negativeTraceLimit => "maxlen must be non-negative"
  | traceLimitTooLarge => "Python int too large to convert to C ssize_t"

end RegisterMachine
