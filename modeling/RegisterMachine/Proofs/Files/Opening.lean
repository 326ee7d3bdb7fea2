import RegisterMachine.FileSystem
import RegisterMachine.Proofs.Step.Checks

namespace RegisterMachine.FileSystem

variable (fs : FileSystem) (node : Node) {location : Location}

theorem node?_put_self (below : location ≠ []) :
    (fs.put location node).node? location = some node := by
  have nonempty : location.isEmpty = false := List.isEmpty_eq_false_iff.mpr below
  simp only [node?, put, nonempty, List.lookup_cons_self, Bool.false_eq_true, ↓reduceIte]

theorem lookup_filter_of_ne {other : Location} (differs : other ≠ location)
    (nodes : List (Location × Node)) :
    (nodes.filter (·.1 ≠ location)).lookup other = nodes.lookup other := by
  induction nodes with
  | nil => rfl
  | cons first nodes ih =>
    obtain ⟨here, node⟩ := first
    by_cases same : here = location
    · subst same
      have apart : (other == here) = false := by simpa using differs
      rw [List.filter_cons_of_neg (by simp), ih, List.lookup_cons, apart]
    · rw [List.filter_cons_of_pos (by simpa using same), List.lookup_cons, List.lookup_cons, ih]

theorem node?_put_of_ne {other : Location} (differs : other ≠ location) :
    (fs.put location node).node? other = fs.node? other := by
  have apart : (other == location) = false := by simpa using differs
  simp only [node?, put, List.lookup_cons, apart, lookup_filter_of_ne differs]

structure Replaces (fs : FileSystem) (location : Location) (content : Array UInt8)
    (fs' : FileSystem) : Prop where
  workingDirectory : fs'.workingDirectory = fs.workingDirectory
  file : fs'.node? location = some (.file content)
  others : ∀ other, other ≠ location → fs'.node? other = fs.node? other

/-- What opening a location for writing makes of it: a regular file, or none, becomes an empty file,
and a device stays as it is. -/
inductive Opens (fs : FileSystem) (location : Location) : FileSystem → Prop
  | file (regular : ∀ node, fs.node? location = some node → ∃ content, node = .file content)
    (below : location ≠ []) : Opens fs location (fs.put location (.file #[]))
  | device {node : Node} (found : fs.node? location = some node)
    (device : node = .fullDevice ∨ node = .nullDevice) : Opens fs location fs

theorem replaces_put (below : location ≠ []) (content : Array UInt8) :
    fs.Replaces location content (fs.put location (.file content)) where
  workingDirectory := rfl
  file := node?_put_self fs _ below
  others := fun _ differs => node?_put_of_ne fs _ differs

variable {fs}

theorem Replaces.trans {fs' fs'' : FileSystem} {content content' : Array UInt8}
    (first : fs.Replaces location content fs') (second : fs'.Replaces location content' fs'') :
    fs.Replaces location content' fs'' where
  workingDirectory := second.workingDirectory.trans first.workingDirectory
  file := second.file
  others := fun other differs => (second.others other differs).trans (first.others other differs)

theorem isSome_node?_put (below : location ≠ []) {other : Location}
    (found : (fs.node? other).isSome) : ((fs.put location node).node? other).isSome := by
  by_cases same : other = location
  · rw [same, node?_put_self fs node below]
    rfl
  · rwa [node?_put_of_ne fs node same]

/-- Steps of a walk: they stay, go back, or enter what is there, and only from a directory. -/
inductive Enters (fs : FileSystem) (here : Location) : String → Location → Prop
  | stay : Enters fs here "." here
  | back : Enters fs here ".." here.dropLast
  | down {name : String} (plain : name ≠ "." ∧ name ≠ "..") (short : name.utf8ByteSize ≤ maxNameSize)
    (found : (fs.node? (here ++ [name])).isSome) : Enters fs here name (here ++ [name])

theorem enter_eq_ok_iff {here there : Location} {name : String} :
    fs.enter here name = .ok there ↔ fs.node? here = some .directory ∧ fs.Enters here name there := by
  constructor
  · intro entered
    unfold enter at entered
    split at entered
    · refine ⟨by assumption, ?_⟩
      split at entered
      · cases entered
        subst name
        exact .stay
      · split at entered
        · cases entered
          subst name
          exact .back
        · split at entered
          · cases entered
          · split at entered
            · cases entered
              exact .down ⟨by assumption, by assumption⟩ (by omega) (by assumption)
            · cases entered
    · cases entered
  · rintro ⟨directory, enters⟩
    cases enters with
    | stay => simp only [enter, directory, ↓reduceIte]
    | back => simp only [enter, directory]; rfl
    | down plain short found =>
      have long : ¬ maxNameSize < name.utf8ByteSize := by omega
      simp only [enter, directory, plain.1, plain.2, long, found, ↓reduceIte]

/-- A walk goes through directories only, so what is put in the place of something else does not
change it. -/
theorem enter_put (below : location ≠ []) (plain : fs.node? location ≠ some .directory)
    {here there : Location} {name : String} (entered : fs.enter here name = .ok there) :
    (fs.put location node).enter here name = .ok there := by
  obtain ⟨directory, enters⟩ := enter_eq_ok_iff.mp entered
  have apart : here ≠ location := by
    rintro rfl
    exact plain directory
  rw [enter_eq_ok_iff, node?_put_of_ne fs node apart]
  refine ⟨directory, ?_⟩
  cases enters with
  | stay => exact .stay
  | back => exact .back
  | down plain short found => exact .down plain short (isSome_node?_put node below found)

theorem foldlM_enter_put (below : location ≠ []) (plain : fs.node? location ≠ some .directory)
    {names : List String} {here there : Location}
    (walked : names.foldlM fs.enter here = .ok there) :
    names.foldlM (fs.put location node).enter here = .ok there := by
  induction names generalizing here with
  | nil => exact walked
  | cons name names ih =>
    rw [List.foldlM_cons] at walked ⊢
    obtain ⟨next, entered, walked⟩ := bind_eq_ok_iff.mp walked
    exact bind_eq_ok_iff.mpr ⟨next, enter_put node below plain entered, ih walked⟩

structure Leads (fs : FileSystem) (path : String) (parent : Location) (name : String) : Prop where
  short : path.utf8ByteSize < pathSizeLimit
  last : (pathComponents path).getLast? = some name
  walked : (pathComponents path).dropLast.foldlM fs.enter (fs.start path) = .ok parent
  directory : fs.node? parent = some .directory
  plain : name ≠ "." ∧ name ≠ ".."
  shortName : name.utf8ByteSize ≤ maxNameSize

theorem exists_of_openForWriting {path : String} {fs' : FileSystem}
    (opened : fs.openForWriting path = .ok (fs', location)) :
    ∃ parent name, fs.Leads path parent name ∧ location = parent ++ [name] ∧
      fs.Opens location fs' := by
  -- Each check either refuses the path or leaves the rest to do.
  unfold openForWriting at opened
  split at opened
  · cases opened
  rename_i short
  simp only at opened
  split at opened
  · cases opened
  rename_i name last
  obtain ⟨parent, walked, opened⟩ := bind_eq_ok_iff.mp opened
  split at opened
  · cases opened
  rename_i directory
  split at opened
  · cases opened
  rename_i plain
  split at opened
  · cases opened
  rename_i shortName
  simp only [Bool.or_eq_true, decide_eq_true_eq, not_or] at plain
  have leads : fs.Leads path parent name :=
    { short := Nat.lt_of_not_le short, last, walked, directory := Classical.not_not.mp directory
      plain := plain.1, shortName := Nat.le_of_not_lt shortName }
  have below : parent ++ [name] ≠ [] := by simp
  refine ⟨parent, name, leads, ?_⟩
  split at opened
  · cases opened
  · rename_i found
    cases opened
    exact ⟨rfl, .device found (.inl rfl)⟩
  · rename_i found
    cases opened
    exact ⟨rfl, .device found (.inr rfl)⟩
  · rename_i content found
    cases opened
    exact ⟨rfl, .file (by simp [found]) below⟩
  · rename_i missing
    cases opened
    exact ⟨rfl, .file (by simp [missing]) below⟩

theorem Leads.locate_of_foldlM {fs' : FileSystem} {path name : String} {parent : Location}
    (leads : fs.Leads path parent name)
    (walked : (pathComponents path).dropLast.foldlM fs'.enter (fs'.start path) = .ok parent)
    (directory : fs'.node? parent = some .directory)
    (found : (fs'.node? (parent ++ [name])).isSome) :
    fs'.locate path = .ok (parent ++ [name]) := by
  have short : ¬ pathSizeLimit ≤ path.utf8ByteSize := Nat.not_le.mpr leads.short
  obtain ⟨names, parts⟩ := List.getLast?_eq_some_iff.mp leads.last
  have entered : fs'.enter parent name = .ok (parent ++ [name]) :=
    enter_eq_ok_iff.mpr ⟨directory, .down leads.plain leads.shortName found⟩
  rw [parts, List.dropLast_concat] at walked
  rw [locate, if_neg short, parts, List.foldlM_append]
  refine bind_eq_ok_iff.mpr ⟨parent, walked, ?_⟩
  rw [List.foldlM_cons, entered]
  rfl

theorem opens_of_openForWriting {path : String} {fs' : FileSystem}
    (opened : fs.openForWriting path = .ok (fs', location)) :
    fs.Opens location fs' ∧ fs'.locate path = .ok location := by
  obtain ⟨parent, name, leads, rfl, opens⟩ := exists_of_openForWriting opened
  refine ⟨opens, ?_⟩
  cases opens with
  | device found =>
    apply leads.locate_of_foldlM leads.walked leads.directory
    rw [found]
    rfl
  | file regular below =>
    have plain : fs.node? (parent ++ [name]) ≠ some .directory := by
      intro directory
      obtain ⟨content, same⟩ := regular _ directory
      cases same
    have walked := foldlM_enter_put (.file #[]) below plain leads.walked
    have apart : parent ≠ parent ++ [name] := by simp
    apply leads.locate_of_foldlM walked
    · rw [node?_put_of_ne fs _ apart]
      exact leads.directory
    · rw [node?_put_self fs _ below]
      rfl

end RegisterMachine.FileSystem
