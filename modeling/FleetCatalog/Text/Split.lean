/-!
# Splitting at a separator

The pieces of a text between the occurrences of a separator, from the left and without overlap.
There is always one piece more than there are separators.
-/
namespace FleetCatalog.Text

/-- The pieces between occurrences of one character. -/
def splitAt (sep : Char) : List Char → List (List Char)
  | [] => [[]]
  | c :: r =>
    if c = sep then [] :: splitAt sep r
    else
      match splitAt sep r with
      | [] => [[c]]
      | piece :: pieces => (c :: piece) :: pieces

/-- The pieces between occurrences of a nonempty separator `first :: rest`. -/
def splitOn (first : Char) (rest : List Char) (cs : List Char) : List (List Char) :=
  match cs with
  | [] => [[]]
  | c :: r =>
    if c = first ∧ rest.isPrefixOf r then [] :: splitOn first rest (r.drop rest.length)
    else
      match splitOn first rest r with
      | [] => [[c]]
      | piece :: pieces => (c :: piece) :: pieces
termination_by cs.length
decreasing_by all_goals simp only [List.length_cons, List.length_drop]; omega

/-- A text without the separator is one piece. -/
theorem splitAt_of_not_mem {sep : Char} {cs : List Char} (h : sep ∉ cs) :
    splitAt sep cs = [cs] := by
  induction cs with
  | nil => rfl
  | cons c r ih =>
    have hc : ¬ c = sep := fun e => h (e ▸ List.mem_cons_self)
    simp [splitAt, hc, ih fun hr => h (List.mem_cons_of_mem _ hr)]

/-- A piece without the separator, put in front of a separator, is split off. -/
theorem splitAt_append_cons {sep : Char} {cs : List Char} (h : sep ∉ cs) (r : List Char) :
    splitAt sep (cs ++ sep :: r) = cs :: splitAt sep r := by
  induction cs with
  | nil => simp [splitAt]
  | cons c t ih =>
    have hc : ¬ c = sep := fun e => h (e ▸ List.mem_cons_self)
    simp [splitAt, hc, ih fun ht => h (List.mem_cons_of_mem _ ht)]

end FleetCatalog.Text
