import RegisterMachine.CommandLine.Options

namespace RegisterMachine.CommandLine

def Request.map (f : Options → Options) : Request → Request
  | .help => .help
  | .run o => .run (f o)

def Token.assigned? : Token → Option Flag
  | setting _ last _ => some last
  | awaiting _ last => some last
  | _ => none

@[simp]
theorem Token.assigned?_setting (flags : List Flag) (last : Flag) (value : List Char) :
    (setting flags last value).assigned? = some last := rfl

@[simp]
theorem Token.assigned?_awaiting (flags : List Flag) (last : Flag) :
    (awaiting flags last).assigned? = some last := rfl

def Unassigned (settled : Flag → Bool) (tokens : List Token) : Prop :=
  ∀ token ∈ tokens, ∀ flag ∈ token.assigned?, settled flag = false

theorem unassigned_cons {settled : Flag → Bool} {token : Token} {tokens : List Token} :
    Unassigned settled (token :: tokens) ↔
      (∀ flag ∈ token.assigned?, settled flag = false) ∧ Unassigned settled tokens :=
  List.forall_mem_cons

theorem unassigned_of_unsettled (tokens : List Token) : Unassigned (fun _ => false) tokens :=
  fun _ _ _ _ => rfl

/-- A change of the options that can be made before the tokens are put together or after it, if they
give no option that is settled a value. -/
structure Options.Commutes (settled : Flag → Bool) (f : Options → Options) : Prop where
  enable : ∀ o flag, (f o).enable flag = f (o.enable flag)
  hex : settled .hex = false → ∀ o value,
    { f o with hex? := some value } = f { o with hex? := some value }
  output : settled .output = false → ∀ o value,
    { f o with output? := some value } = f { o with output? := some value }
  maxSteps : settled .maxSteps = false → ∀ o value,
    { f o with maxSteps := value } = f { o with maxSteps := value }
  image : ∀ o path, { f o with image? := some path } = f { o with image? := some path }
  image? : ∀ o, (f o).image? = o.image?

variable {settled : Flag → Bool} {f : Options → Options} {text : String}
  {leading arguments : List String} {given : List Token}

namespace Options.Commutes

variable (commutes : Commutes settled f)

include commutes

theorem foldl_enable (flags : List Flag) (o : Options) :
    flags.foldl Options.enable (f o) = f (flags.foldl Options.enable o) := by
  induction flags generalizing o with
  | nil => rfl
  | cons flag flags ih => rw [List.foldl_cons, List.foldl_cons, commutes.enable, ih]

theorem assign (o : Options) (flag : Flag) (value : Setting String) (free : settled flag = false) :
    (f o).assign flag value = (o.assign flag value).map f := by
  cases flag with
  | hex => exact congrArg Except.ok (commutes.hex free o value)
  | output => exact congrArg Except.ok (commutes.output free o value)
  | maxSteps =>
    cases value with
    | blank => exact congrArg Except.ok (commutes.maxSteps free o .blank)
    | given text =>
      simp only [Options.assign]
      cases readInteger? text with
      | some n => exact congrArg Except.ok (commutes.maxSteps free o (.given n))
      | none => rfl
  | _ => rfl

theorem assemble (o : Options) (surplus : Bool) (tokens : List Token)
    (free : Unassigned settled tokens) :
    Options.assemble (f o) surplus tokens =
      (Options.assemble o surplus tokens).map (Request.map f) := by
  fun_induction Options.assemble o surplus tokens
  all_goals
    simp_all [Options.assemble, commutes.foldl_enable, commutes.assign, commutes.image?,
      commutes.image, unassigned_cons, Request.map, Except.map]

end Options.Commutes

theorem parse_append (read : tokens (leading ++ arguments) = given ++ tokens arguments)
    (clear : .ambiguous ∉ given)
    (changes : ∀ rest,
      Options.assemble {} false (given ++ rest) = Options.assemble (f {}) false rest)
    (commutes : Options.Commutes settled f) (free : Unassigned settled (tokens arguments)) :
    parse (leading ++ arguments) = (parse arguments).map (Request.map f) := by
  have clear' : (given ++ tokens arguments).contains .ambiguous =
      (tokens arguments).contains .ambiguous := by
    simp [clear]
  rw [parse, parse, read, clear', changes, commutes.assemble _ _ _ free]
  split
  · rfl
  · rfl

theorem plain_of_not_mem (undashed : '-' ∉ text.toList) : text.startsWith "-" = false := by
  cases dashed : text.startsWith "-" with
  | false => rfl
  | true =>
    have begins : ['-'] <+: text.toList := String.startsWith_string_iff.mp dashed
    exact absurd (begins.subset List.mem_cons_self) undashed

theorem ne_separator_of_plain (plain : text.startsWith "-" = false) : text ≠ "--" := by
  rintro rfl
  simp at plain

theorem Flag.dash_long (flag : Flag) : "-".toList <+: flag.long := by
  cases flag <;> decide

theorem Flag.long_ne_separator (flag : Flag) : flag.long ≠ "--".toList := by
  cases flag <;> decide

theorem tokens_option {flag : Flag} {option : String} (spelled : option.toList = flag.long)
    (valued : flag.takesValue = true) (plain : text.startsWith "-" = false)
    (arguments : List String) :
    tokens ([option, text] ++ arguments) = [.awaiting [] flag, .word text] ++ tokens arguments := by
  have apart : option ≠ "--" := by
    rintro rfl
    exact flag.long_ne_separator spelled.symm
  have dash : option.startsWith "-" = true := by
    rw [String.startsWith_string_iff, spelled]
    exact flag.dash_long
  have awaits : dashToken flag.long = .awaiting [] flag := by
    revert valued
    cases flag <;> decide
  rw [List.cons_append, List.singleton_append, tokens, if_neg apart, if_pos dash, spelled, awaits,
    tokens, if_neg (ne_separator_of_plain plain), plain]
  rfl

theorem Flag.not_mem_long (flag : Flag) : '=' ∉ flag.long := by
  cases flag <;> decide

theorem splitAssignment_append {head : List Char} (unmarked : '=' ∉ head) (text : List Char) :
    splitAssignment (head ++ '=' :: text) = (head, some text) := by
  have other : ∀ c ∈ head, decide (c ≠ '=') = true := by
    intro c member
    simp only [ne_eq, decide_eq_true_eq]
    rintro rfl
    exact unmarked member
  rw [splitAssignment, List.takeWhile_append_of_pos other, List.dropWhile_append_of_pos other]
  simp

theorem dashToken_assigned (flag : Flag) (valued : flag.takesValue = true) (text : List Char) :
    dashToken (flag.long ++ '=' :: text) = .setting [] flag text := by
  have unspelled : Flag.ofSpelling? (flag.long ++ '=' :: text) = none := by
    have none : Flag.all.find? (·.long = flag.long ++ '=' :: text) = none := by
      apply List.find?_eq_none.mpr
      intro other _ same
      have long : other.long = flag.long ++ '=' :: text := of_decide_eq_true same
      have marked : '=' ∈ other.long := by
        rw [long]
        simp
      exact other.not_mem_long marked
    cases flag with
    | hex => exact congrArg (Option.map (·, false)) none
    | output => exact congrArg (Option.map (·, false)) none
    | maxSteps => exact congrArg (Option.map (·, false)) none
    | _ => cases valued
  have option : Flag.ofSpelling? flag.long = some (flag, false) := by
    cases flag <;> decide
  simp only [dashToken, splitAssignment_append flag.not_mem_long, unspelled, option, assignedToken,
    valued, ↓reduceIte]

theorem append_eq_ofList {flag : Flag} {option : String}
    (spelled : option.toList = flag.long ++ ['=']) (text : String) :
    option ++ text = String.ofList (flag.long ++ '=' :: text.toList) := by
  have chars : (String.ofList (flag.long ++ '=' :: text.toList)).toList =
      flag.long ++ '=' :: text.toList := String.toList_ofList
  apply String.toList_injective
  rw [chars, String.toList_append, spelled, List.append_assoc, List.singleton_append]

theorem tokens_assigned (flag : Flag) (valued : flag.takesValue = true) (text : List Char)
    (arguments : List String) :
    tokens ([String.ofList (flag.long ++ '=' :: text)] ++ arguments) =
      [.setting [] flag text] ++ tokens arguments := by
  have apart : String.ofList (flag.long ++ '=' :: text) ≠ "--" := by
    intro same
    have marked : '=' ∈ "--".toList := by
      rw [← same, String.toList_ofList]
      simp
    exact absurd marked (by decide)
  have dash : (String.ofList (flag.long ++ '=' :: text)).startsWith "-" = true := by
    have spelled : (String.ofList (flag.long ++ '=' :: text)).toList = flag.long ++ '=' :: text :=
      String.toList_ofList
    rw [String.startsWith_string_iff, spelled]
    exact flag.dash_long.trans (List.prefix_append _ _)
  rw [List.singleton_append, tokens, if_neg apart, if_pos dash, String.toList_ofList,
    dashToken_assigned flag valued]
  rfl

/-- The arguments that give an option a value: two, or one in which the two are joined. -/
inductive Flag.Spells (flag : Flag) (text : String) : List String → Prop
  | apart {option : String} (spelled : option.toList = flag.long) : Spells flag text [option, text]
  | joined {option : String} (spelled : option.toList = flag.long ++ ['=']) :
    Spells flag text [option ++ text]

namespace Flag.Spells

variable {flag : Flag} (spells : flag.Spells text leading) (valued : flag.takesValue = true)
  (plain : text.startsWith "-" = false)

include spells valued plain

theorem exists_tokens (arguments : List String) :
    ∃ given, tokens (leading ++ arguments) = given ++ tokens arguments ∧ .ambiguous ∉ given ∧
      ∀ o surplus rest, Options.assemble o surplus (given ++ rest) =
        match o.assign flag (.given text) with
        | .ok o => Options.assemble o surplus rest
        | .error e => .error e := by
  cases spells with
  | apart spelled =>
    exact ⟨_, tokens_option spelled valued plain arguments, by simp, fun _ _ _ => rfl⟩
  | joined spelled =>
    have value : attachedValue text.toList = .given text := by
      have other : text.toList ≠ ['-', '-'] := by
        intro same
        exact ne_separator_of_plain plain (String.toList_injective same)
      rw [attachedValue, if_neg other, String.ofList_toList]
    rw [append_eq_ofList spelled, ← value]
    exact ⟨_, tokens_assigned flag valued text.toList arguments, by simp, fun _ _ _ => rfl⟩

theorem parse_eq (assigns : ({} : Options).assign flag (.given text) = .ok (f {}))
    (commutes : Options.Commutes settled f) (free : Unassigned settled (tokens arguments)) :
    parse (leading ++ arguments) = (parse arguments).map (Request.map f) := by
  obtain ⟨given, read, clear, assembled⟩ := spells.exists_tokens valued plain arguments
  refine parse_append read clear ?_ commutes free
  intro rest
  rw [assembled, assigns]

end Flag.Spells

end RegisterMachine.CommandLine
