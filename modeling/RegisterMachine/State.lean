import RegisterMachine.Error
import RegisterMachine.Word

namespace RegisterMachine

abbrev Registers := Vector Int 16

def Registers.pointer (r : Registers) : Int := r.get 0

abbrev Memory := Vector UInt8 4096

structure State where
  registers : Registers := Vector.replicate 16 0
  memory : Memory := Vector.replicate 4096 0
  deriving DecidableEq

def State.WellFormed (s : State) : Prop :=
  ∀ i : Fin 16, 0 ≤ s.registers.get i ∧ s.registers.get i < 4294967296

/-- The register that an index names; `kind` is the kind of fault if there is none. The fault names
the index, so an index that cannot be written is another error. -/
def checkRegister (index : Int) (kind : FaultKind := .memoryAddress) : Except Error (Fin 16) :=
  if h : 0 ≤ index ∧ index < 16 then .ok ⟨index.toNat, by omega⟩
  else .error (if isWritable index then .fault (.invalidRegister kind index) else .numeralTooLong)

abbrev Span (length : Int) := { a : Int // 0 ≤ a ∧ a + length ≤ 4096 }

def checkSpan (address length : Int) : Except Error (Span length) :=
  if h : 0 ≤ address ∧ address + length ≤ 4096 then .ok ⟨address, h⟩
  else .error (if isWritable length then .fault (.spanOutside address length) else .numeralTooLong)

/-- The register of a place in the file: places from 0 on count from the first register, negative
places from the last. -/
def slot? (place : Int) : Option (Fin 16) :=
  if h : 0 ≤ place ∧ place < 16 then some ⟨place.toNat, by omega⟩
  else if h : -16 ≤ place ∧ place < 0 then some ⟨(place + 16).toNat, by omega⟩
  else none

/-- The register of a place in the file. A place that cannot be counted is an error of its own,
before `missing`, which says that there is no register. -/
def findSlot (place : Int) (missing : Error) : Except Error (Fin 16) :=
  match slot? place with
  | some i => .ok i
  | none => .error (if isCountable place then missing else .placeTooLarge)

namespace Memory

def wordBytes (m : Memory) (a : Nat) (h : a + 4 ≤ 4096) : List UInt8 :=
  [m[a], m[a + 1], m[a + 2], m[a + 3]]

def setBytes (m : Memory) (a : Nat) (h : a + 4 ≤ 4096) (b₀ b₁ b₂ b₃ : UInt8) : Memory :=
  (((m.set a b₀).set (a + 1) b₁).set (a + 2) b₂).set (a + 3) b₃

def setWord (m : Memory) (a : Nat) (h : a + 4 ≤ 4096) (value : Int) : Memory :=
  let n := (toWord value).toNat
  m.setBytes a h n.toUInt8 (n / 256).toUInt8 (n / 65536).toUInt8 (n / 16777216).toUInt8

def ofImage (image : Array UInt8) : Memory :=
  Vector.ofFn fun i => image.getD i 0

end Memory

namespace State

def ip (s : State) : Int := s.registers.pointer

def setIp (s : State) (value : Int) : State :=
  { s with registers := s.registers.set 0 (toWord value) }

def setRegister (s : State) (i : Fin 16) (value : Int) : State :=
  { s with registers := s.registers.set i value }

def wordAt (s : State) (a : Span 4) : Int :=
  numberOfBytes (Memory.wordBytes s.memory a.val.toNat (by omega))

def setWordAt (s : State) (a : Span 4) (value : Int) : State :=
  { s with memory := Memory.setWord s.memory a.val.toNat (by omega) value }

def readWord (s : State) (address : Int) : Except Error Int :=
  s.wordAt <$> checkSpan address 4

def writeWord (s : State) (address value : Int) : Except Error State :=
  (s.setWordAt · value) <$> checkSpan address 4

def ofImage (image : Array UInt8) : Except Error State :=
  if image.size ≤ 4096 then .ok { memory := Memory.ofImage image }
  else .error (.fault (.imageTooLarge image.size))

def text (s : State) : String :=
  let named := s.registers.toList.zipIdx.filter fun (value, i) => i ≠ 0 && value ≠ 0
  " ".intercalate <|
    s!"IP={addressText s.ip}" :: named.map fun (value, i) => s!"r{i}={contentText value}"

end State

end RegisterMachine
