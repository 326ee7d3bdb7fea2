namespace RegisterMachine

def initial? (line : String) : Option Char := line.toList.head?

def marked (mark line : String) : Bool := mark.toList.isPrefixOf line.toList

variable {mark : String} {c : Char}

theorem initial?_append (start rest : String) :
    initial? (start ++ rest) = (initial? start).or (initial? rest) := by
  rw [initial?, String.toList_append, List.head?_append]
  rfl

theorem initial?_append_of_some {start : String} (begins : initial? start = some c)
    (rest : String) : initial? (start ++ rest) = some c := by
  rw [initial?_append, begins, Option.some_or]

theorem marked_append {start : String} (begins : marked mark start = true) (rest : String) :
    marked mark (start ++ rest) = true := by
  have first := List.isPrefixOf_iff_prefix.mp begins
  rw [marked, String.toList_append]
  exact List.isPrefixOf_iff_prefix.mpr (first.trans (List.prefix_append _ _))

theorem initial?_of_marked {line : String} (begins : initial? mark = some c)
    (matched : marked mark line = true) : initial? line = some c := by
  obtain ⟨chars, same⟩ := List.head?_eq_some_iff.mp begins
  obtain ⟨rest, together⟩ := List.isPrefixOf_iff_prefix.mp matched
  rw [same] at together
  rw [initial?, ← together]
  rfl

theorem marked_eq_false {line : String} (begins : initial? mark = some c)
    (other : initial? line ≠ some c) : marked mark line = false := by
  apply Bool.eq_false_iff.mpr
  intro matched
  exact other (initial?_of_marked begins matched)

theorem filter_marked_eq_nil {lines : List String} (begins : initial? mark = some c)
    (other : ∀ line ∈ lines, initial? line ≠ some c) : lines.filter (marked mark) = [] := by
  apply List.filter_eq_nil_iff.mpr
  intro line member
  simp [marked_eq_false begins (other line member)]

theorem filter_marked_of_marked {other : String} {lines : List String}
    (begins : initial? mark = some c) (all : ∀ line ∈ lines, marked other line = true)
    (apart : initial? other ∉ [none, some c]) : lines.filter (marked mark) = [] := by
  apply filter_marked_eq_nil begins
  intro line member same
  cases start : initial? other with
  | none => simp [start] at apart
  | some c' =>
    rw [initial?_of_marked start (all line member)] at same
    simp [start, same] at apart

end RegisterMachine
