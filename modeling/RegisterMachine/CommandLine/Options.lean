import RegisterMachine.Text.DecimalDigit
import RegisterMachine.Text.Integer

namespace RegisterMachine.CommandLine

inductive Flag
  | help
  | hex
  | output
  | maxSteps
  | disassemble
  | trace
  | quiet
  | debug
  deriving DecidableEq, Repr

namespace Flag

def all : List Flag := [help, hex, output, maxSteps, disassemble, trace, quiet, debug]

def long : Flag → List Char
  | help => "--help".toList
  | hex => "--hex".toList
  | output => "--output".toList
  | maxSteps => "--max-steps".toList
  | disassemble => "--disassemble".toList
  | trace => "--trace".toList
  | quiet => "--quiet".toList
  | debug => "--debug".toList

def letter? : Flag → Option Char
  | help => some 'h'
  | output => some 'o'
  | disassemble => some 'd'
  | trace => some 't'
  | quiet => some 'q'
  | hex | maxSteps | debug => none

def takesValue : Flag → Bool
  | hex | output | maxSteps => true
  | _ => false

def ofLetter? (c : Char) : Option Flag := all.find? (·.letter? = some c)

/-- The option of a full spelling, and whether the spelling is short. -/
def ofSpelling? (spelling : List Char) : Option (Flag × Bool) :=
  match spelling with
  | ['-', c] => (ofLetter? c).map (·, true)
  | _ => (all.find? (·.long = spelling)).map (·, false)

def abbreviated (start : List Char) : List Flag := all.filter (start.isPrefixOf ·.long)

end Flag

inductive Token
  | word (text : String)
  | separator
  /-- Options that take no value. -/
  | switches (flags : List Flag)
  /-- Switches and an option that has its value with it. -/
  | setting (flags : List Flag) (last : Flag) (value : List Char)
  /-- Switches and an option whose value is the next word. -/
  | awaiting (flags : List Flag) (last : Flag)
  | unknown
  | malformed
  | ambiguous
  deriving DecidableEq, Repr

/-- The token of options joined after one dash: the switches `before`, then `flag`, then the rest of
the argument. The rest is the value of `flag` if that takes one, and further options otherwise. -/
def joinedToken (before : List Flag) (flag : Flag) : List Char → Token
  | [] => if flag.takesValue then .awaiting before flag else .switches (before ++ [flag])
  | c :: rest =>
    if flag.takesValue then .setting before flag (c :: rest)
    else match Flag.ofLetter? c with
      | some next => joinedToken (before ++ [flag]) next rest
      | none => .malformed

/-- The token of an option that is followed by `=` and a text. A short switch reads the text as
options that are joined to it. -/
def assignedToken (flag : Flag) (short : Bool) (text : List Char) : Token :=
  if flag.takesValue then .setting [] flag text
  else if short && !text.isEmpty then joinedToken [] flag text
  else .malformed

/-- Whether a text is a number with a minus sign, with or without a fraction. One line end may
follow it. -/
def isNegativeNumber (text : List Char) : Bool :=
  let isDigit c := (decimalValue? c).isSome
  match text with
  | '-' :: rest =>
    let body := if rest.getLast? = some '\n' then rest.dropLast else rest
    match body.dropWhile isDigit with
    | [] => !body.isEmpty
    | '.' :: fraction => !fraction.isEmpty && fraction.all isDigit
    | _ => false
  | _ => false

def splitAssignment (text : List Char) : List Char × Option (List Char) :=
  (text.takeWhile (· ≠ '='), match text.dropWhile (· ≠ '=') with
    | [] => none
    | _ :: rest => some rest)

/-- The token of an argument that stands before the separator and begins with a dash. Full
spellings come first, then the beginnings of long ones and joined short ones; what remains is a word
if it is a number or holds a blank. -/
def dashToken (text : List Char) : Token :=
  let (head, value?) := splitAssignment text
  match Flag.ofSpelling? text, Flag.ofSpelling? head, value? with
  | some (flag, _), _, _ => joinedToken [] flag []
  | none, some (flag, short), some value => assignedToken flag short value
  | none, _, _ =>
    let candidates := match text with
      | '-' :: '-' :: _ => (Flag.abbreviated head).map fun flag =>
        match value? with
        | some value => assignedToken flag false value
        | none => joinedToken [] flag []
      | '-' :: c :: rest => (Flag.ofLetter? c).toList.map (joinedToken [] · rest)
      | _ => []
    match candidates with
    | [token] => token
    | _ :: _ :: _ => .ambiguous
    | [] =>
      if text = ['-'] || isNegativeNumber text || text.contains ' ' then
        .word (String.ofList text)
      else .unknown

def tokens : List String → List Token
  | [] => []
  | argument :: rest =>
    if argument = "--" then .separator :: rest.map .word
    else if argument.startsWith "-" then dashToken argument.toList :: tokens rest
    else .word argument :: tokens rest

inductive Setting (α : Type)
  | given (value : α)
  | blank
  deriving DecidableEq, Repr

/-- The value that an option has with it; the separator in its place leaves the option blank. -/
def attachedValue (value : List Char) : Setting String :=
  if value = ['-', '-'] then .blank else .given (String.ofList value)

structure Options where
  image? : Option String := none
  hex? : Option (Setting String) := none
  output? : Option (Setting String) := none
  /-- The number of steps after which to stop; 0 does not stop. -/
  maxSteps : Setting Int := .given 0
  disassemble : Bool := false
  trace : Bool := false
  quiet : Bool := false
  debug : Bool := false
  deriving DecidableEq, Repr

inductive Request
  | help
  | run (options : Options)
  deriving DecidableEq, Repr

inductive UsageError
  | grammar
  | noImage
  | twoImages
  | negativeBound
  | badHex (position : Nat)
  | imageNotFound (path : String)
  deriving DecidableEq, Repr

def UsageError.message? : UsageError → Option String
  | grammar => none
  | noImage => some "Either an image path or --hex is required"
  | twoImages => some "Give either an image path or --hex, not both"
  | negativeBound => some "--max-steps must be >= 0"
  | badHex position =>
    some <| "invalid --hex image: " ++
      s!"non-hexadecimal number found in fromhex() arg at position {position}"
  | imageNotFound path => some s!"image file not found: {path}"

namespace Options

def enable (o : Options) : Flag → Options
  | .disassemble => { o with disassemble := true }
  | .trace => { o with trace := true }
  | .quiet => { o with quiet := true }
  | .debug => { o with debug := true }
  | .help | .hex | .output | .maxSteps => o

def assign (o : Options) (flag : Flag) (value : Setting String) : Except UsageError Options :=
  match flag, value with
  | .hex, value => .ok { o with hex? := some value }
  | .output, value => .ok { o with output? := some value }
  | .maxSteps, .blank => .ok { o with maxSteps := .blank }
  | .maxSteps, .given text =>
    match readInteger? text with
    | some n => .ok { o with maxSteps := .given n }
    | none => .error .grammar
  | _, _ => .error .grammar

/-- Puts tokens together. One word is the path of the image, and a separator next to it is dropped.
Any other word, separator or unknown option is a surplus, which is refused at the end. Help is given
as soon as it is asked for. -/
def assemble (o : Options) (surplus : Bool) : List Token → Except UsageError Request
  | [] => if surplus then .error .grammar else .ok (.run o)
  | .switches flags :: rest =>
    if flags.contains .help then .ok .help
    else assemble (flags.foldl enable o) surplus rest
  | .setting flags last value :: rest =>
    if flags.contains .help then .ok .help
    else match (flags.foldl enable o).assign last (attachedValue value) with
      | .ok o => assemble o surplus rest
      | .error e => .error e
  | .awaiting flags last :: .word value :: rest =>
    if flags.contains .help then .ok .help
    else match (flags.foldl enable o).assign last (.given value) with
      | .ok o => assemble o surplus rest
      | .error e => .error e
  | .word path :: .separator :: rest =>
    if o.image?.isSome then assemble o true rest
    else assemble { o with image? := some path } surplus rest
  | .separator :: .word path :: rest =>
    if o.image?.isSome then assemble o true rest
    else assemble { o with image? := some path } surplus rest
  | .word path :: rest =>
    if o.image?.isSome then assemble o true rest
    else assemble { o with image? := some path } surplus rest
  | .separator :: rest => assemble o (surplus || o.image?.isSome) rest
  | .unknown :: rest => assemble o true rest
  | .awaiting .. :: _ => .error .grammar
  | .malformed :: _ => .error .grammar
  | .ambiguous :: _ => .error .grammar

end Options

def parse (arguments : List String) : Except UsageError Request :=
  let tokens := tokens arguments
  if tokens.contains .ambiguous then .error .grammar else Options.assemble {} false tokens

end RegisterMachine.CommandLine
