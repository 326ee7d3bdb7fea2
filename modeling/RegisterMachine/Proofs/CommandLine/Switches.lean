import RegisterMachine.Proofs.CommandLine.Leading

namespace RegisterMachine.CommandLine

structure Diagnostics where
  trace : Bool := false
  quiet : Bool := false
  debug : Bool := false

namespace Diagnostics

def flags (d : Diagnostics) : List Flag :=
  (if d.trace then [.trace] else []) ++ (if d.quiet then [.quiet] else []) ++
    if d.debug then [.debug] else []

def switches (d : Diagnostics) : List String := d.flags.map fun flag => String.ofList flag.long

theorem mem_flags (d : Diagnostics) :
    ∀ flag ∈ d.flags, flag = .trace ∨ flag = .quiet ∨ flag = .debug := by
  obtain ⟨_ | _, _ | _, _ | _⟩ := d <;> decide

end Diagnostics

/-- The options with the switches of the diagnostics in addition to their own. -/
def Options.enabling (d : Diagnostics) (o : Options) : Options :=
  { o with trace := d.trace || o.trace, quiet := d.quiet || o.quiet, debug := d.debug || o.debug }

def Request.enabling (d : Diagnostics) : Request → Request
  | .help => .help
  | .run o => .run (o.enabling d)

theorem Options.commutes_enabling (d : Diagnostics) : Commutes (fun _ => false) (enabling d) where
  enable o flag := by cases flag <;> simp [enable, enabling]
  hex _ _ _ := rfl
  output _ _ _ := rfl
  maxSteps _ _ _ := rfl
  image _ _ := rfl
  image? _ := rfl

theorem Request.map_enabling (d : Diagnostics) :
    Request.map (Options.enabling d) = Request.enabling d := by
  funext request
  cases request <;> rfl

theorem tokens_switch {flag : Flag} (switch : flag = .trace ∨ flag = .quiet ∨ flag = .debug)
    (arguments : List String) :
    tokens (String.ofList flag.long :: arguments) = .switches [flag] :: tokens arguments := by
  have chars : (String.ofList flag.long).toList = flag.long := String.toList_ofList
  have apart : String.ofList flag.long ≠ "--" := by
    intro same
    rw [same] at chars
    exact flag.long_ne_separator chars.symm
  have dash : (String.ofList flag.long).startsWith "-" = true := by
    rw [String.startsWith_string_iff, chars]
    exact flag.dash_long
  have spelled : dashToken flag.long = .switches [flag] := by
    rcases switch with rfl | rfl | rfl <;> decide
  rw [tokens, if_neg apart, if_pos dash, chars, spelled]

theorem tokens_switches (flags : List Flag)
    (switch : ∀ flag ∈ flags, flag = .trace ∨ flag = .quiet ∨ flag = .debug)
    (arguments : List String) :
    tokens (flags.map (fun flag => String.ofList flag.long) ++ arguments) =
      flags.map (fun flag => .switches [flag]) ++ tokens arguments := by
  induction flags with
  | nil => rfl
  | cons flag flags ih =>
    rw [List.forall_mem_cons] at switch
    rw [List.map_cons, List.map_cons, List.cons_append, List.cons_append, ← ih switch.2]
    exact tokens_switch switch.1 _

theorem Options.assemble_switches (flags : List Flag) (noHelp : .help ∉ flags) (o : Options)
    (surplus : Bool) (tokens : List Token) :
    assemble o surplus (flags.map (fun flag => .switches [flag]) ++ tokens) =
      assemble (flags.foldl enable o) surplus tokens := by
  induction flags generalizing o with
  | nil => rfl
  | cons flag flags ih =>
    rw [List.mem_cons, not_or] at noHelp
    have other : ¬ [flag].contains .help = true := by simpa using noHelp.1
    rw [List.map_cons, List.cons_append, assemble, if_neg other, ih noHelp.2]
    rfl

theorem Options.foldl_enable_flags (d : Diagnostics) (o : Options) :
    d.flags.foldl enable o = o.enabling d := by
  obtain ⟨_ | _, _ | _, _ | _⟩ := d <;> rfl

theorem parse_switches (d : Diagnostics) (arguments : List String) :
    parse (d.switches ++ arguments) = (parse arguments).map (Request.enabling d) := by
  have noHelp : .help ∉ d.flags := by
    intro member
    simpa using d.mem_flags _ member
  have clear : Token.ambiguous ∉ d.flags.map fun flag => Token.switches [flag] := by
    simp
  rw [← Request.map_enabling]
  apply parse_append (tokens_switches _ d.mem_flags arguments) clear _
    (Options.commutes_enabling d) (unassigned_of_unsettled _)
  intro rest
  rw [Options.assemble_switches _ noHelp, Options.foldl_enable_flags]

end RegisterMachine.CommandLine
