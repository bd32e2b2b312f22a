import FleetCatalog.Proofs.Template.Scan

/-! What the scan of a template accepts. A template is read from the left piece by piece, a
character of a literal or a whole reference at a time. Reading comes to the end of the template, or
to a reference that is never closed, and only then the scan fails. Otherwise its segments are what
has been read, with the characters of a literal put together, and no others in normal form are. -/
namespace FleetCatalog
namespace Template

/-- The first piece of a template, and what is left behind it. -/
inductive Next : List Char → Segment → List Char → Prop
  | escaped (r : List Char) : Next ('$' :: '$' :: r) (.literal ['$']) r
  | reference {path : List Char} (closed : '}' ∉ path) (r : List Char) :
      Next ('$' :: '{' :: (path ++ '}' :: r)) (.reference path) r
  | dollar {r : List Char} (alone : ∀ c ∈ r.head?, c ≠ '$' ∧ c ≠ '{') :
      Next ('$' :: r) (.literal ['$']) r
  | other {c : Char} (plain : c ≠ '$') (r : List Char) : Next (c :: r) (.literal [c]) r

/-- The pieces that are read of a template, and the rest in front of which reading has come. -/
inductive Reads : List Char → List Segment → List Char → Prop
  | done (cs : List Char) : Reads cs [] cs
  | next {cs r rest s read} (first : Next cs s r) (tail : Reads r read rest) :
      Reads cs (s :: read) rest

/-- A segment as it is read: a literal by its characters, a reference whole. -/
def pieces : Segment → List Segment
  | .literal text => text.map fun c => .literal [c]
  | .reference path => [.reference path]

variable {cs r rest t : List Char} {s : Segment} {read segments : List Segment}

section Reading

theorem Next.length_lt (h : Next cs s r) : r.length < cs.length := by
  cases h with
  | escaped | reference | dollar | other =>
    simp only [List.length_cons, List.length_append]
    omega

theorem Next.proper (h : Next cs s r) : s.Proper := by
  cases h with
  | escaped | dollar | other => exact List.cons_ne_nil _ _
  | reference closed => exact closed

theorem Next.pieces_eq (h : Next cs s r) : pieces s = [s] := by
  cases h <;> rfl

/-- A template has a first piece, unless it is empty or opens a reference that is never closed. -/
theorem exists_next (cs : List Char) : cs = [] ∨ (∃ rest, cs = '$' :: '{' :: rest ∧ '}' ∉ rest) ∨
    ∃ s r, Next cs s r := by
  rcases cs with _ | ⟨c, cs⟩
  · exact .inl rfl
  refine .inr ?_
  by_cases hc : c = '$'
  · subst hc
    rcases cs with _ | ⟨d, cs⟩
    · exact .inr ⟨_, _, .dollar (by simp)⟩
    by_cases hdollar : d = '$'
    · subst hdollar
      exact .inr ⟨_, _, .escaped cs⟩
    by_cases hopen : d = '{'
    · subst hopen
      by_cases hclosed : '}' ∈ cs
      · obtain ⟨path, r, rfl, hpath⟩ := List.eq_append_cons_of_mem hclosed
        exact .inr ⟨_, _, .reference hpath r⟩
      · exact .inl ⟨cs, rfl, hclosed⟩
    · exact .inr ⟨_, _, .dollar (by simp [hdollar, hopen])⟩
  · exact .inr ⟨_, _, .other hc cs⟩

/-- Reading comes to the end, or to a reference that is never closed. -/
theorem exists_reads (cs : List Char) : ∃ read rest, Reads cs read rest ∧
    (rest = [] ∨ ∃ tail, rest = '$' :: '{' :: tail ∧ '}' ∉ tail) := by
  rcases exists_next cs with rfl | hopen | ⟨s, r, hnext⟩
  · exact ⟨[], [], .done [], .inl rfl⟩
  · exact ⟨[], cs, .done cs, .inr hopen⟩
  · obtain ⟨read, rest, hread, hrest⟩ := exists_reads r
    exact ⟨s :: read, rest, .next hnext hread, hrest⟩
termination_by cs.length
decreasing_by exact hnext.length_lt

theorem Reads.forall_pieces_eq (h : Reads cs read rest) : ∀ s ∈ read, pieces s = [s] := by
  induction h with
  | done => simp
  | next first _ ih => exact List.forall_mem_cons.2 ⟨first.pieces_eq, ih⟩

theorem Reads.forall_proper (h : Reads cs read rest) : ∀ s ∈ read, s.Proper := by
  induction h with
  | done => simp
  | next first _ ih => exact List.forall_mem_cons.2 ⟨first.proper, ih⟩

theorem Next.scan_eq (h : Next cs s r) : scan cs = (scan r).map (pushSegment s) := by
  cases h with
  | escaped => rfl
  | reference closed =>
    rw [scan, scanReference_append closed, Option.map_map]
    rfl
  | dollar alone =>
    cases r with
    | nil => rfl
    | cons c r =>
      obtain ⟨hdollar, hopen⟩ := alone c rfl
      rw [scan]
      · rfl
      · rintro r' - ⟨⟩
        exact hdollar rfl
      · rintro r' - ⟨⟩
        exact hopen rfl
  | other plain => exact scan_of_ne plain r

/-- What has been read stands in front of what the scan finds behind it. -/
theorem Reads.scan_eq (h : Reads cs read rest) :
    scan cs = (scan rest).map fun segments => read.foldr pushSegment segments := by
  induction h with
  | done cs => simp
  | next first _ ih =>
    rw [first.scan_eq, ih, Option.map_map]
    rfl

end Reading

section Joining

theorem flatMap_pushLiteral (c : Char) (segments : List Segment) :
    (pushLiteral c segments).flatMap pieces = .literal [c] :: segments.flatMap pieces := by
  cases segments with
  | nil => rfl
  | cons s segments => cases s <;> rfl

theorem flatMap_pushSegment (s : Segment) (segments : List Segment) :
    (pushSegment s segments).flatMap pieces = pieces s ++ segments.flatMap pieces := by
  cases s with
  | reference path => rfl
  | literal text =>
    show (text.foldr pushLiteral segments).flatMap pieces = _
    induction text with
    | nil => rfl
    | cons c text ih =>
      rw [List.foldr_cons, flatMap_pushLiteral, ih]
      rfl

/-- Pieces that are put together fall into the same pieces again. -/
theorem flatMap_foldr_pushSegment (h : ∀ s ∈ read, pieces s = [s]) :
    (read.foldr pushSegment []).flatMap pieces = read := by
  induction read with
  | nil => rfl
  | cons s read ih =>
    obtain ⟨hs, hread⟩ := List.forall_mem_cons.1 h
    rw [List.foldr_cons, flatMap_pushSegment, hs, ih hread]
    rfl

/-- A segment is put together from its pieces. -/
theorem foldr_pieces (s : Segment) (segments : List Segment) :
    (pieces s).foldr pushSegment segments = pushSegment s segments := by
  cases s with
  | reference path => rfl
  | literal text => exact List.foldr_map

theorem Normal.foldr_flatMap_pieces (h : Normal segments) :
    (segments.flatMap pieces).foldr pushSegment [] = segments := by
  rw [List.foldr_flatMap]
  simp only [foldr_pieces]
  exact h.foldr_pushSegment

theorem normal_nil : Normal [] := ⟨by simp, .nil⟩

/-- Normal form is kept in front of a reference and, by a literal, of anything else. -/
theorem Normal.pushLiteral (h : Normal segments) (c : Char) :
    Normal (Template.pushLiteral c segments) := by
  obtain ⟨hproper, hapart⟩ := h
  have hliteral (text : List Char) : (Segment.literal (c :: text)).Proper := List.cons_ne_nil c text
  cases segments with
  | nil => exact ⟨List.forall_mem_cons.2 ⟨hliteral [], by simp⟩, .singleton _⟩
  | cons s segments =>
    cases s with
    | reference path =>
      refine ⟨List.forall_mem_cons.2 ⟨hliteral [], hproper⟩, List.isChain_cons_cons.2 ⟨?_, hapart⟩⟩
      exact fun _ => rfl
    | literal text =>
      obtain ⟨-, hrest⟩ := List.forall_mem_cons.1 hproper
      rw [List.isChain_cons] at hapart
      exact ⟨List.forall_mem_cons.2 ⟨hliteral text, hrest⟩, List.isChain_cons.2 hapart⟩

theorem Normal.pushSegment (h : Normal segments) (hs : s.Proper) :
    Normal (Template.pushSegment s segments) := by
  cases s with
  | literal text =>
    show Normal (text.foldr Template.pushLiteral segments)
    exact List.foldrRecOn text _ h fun _ hrest c _ => hrest.pushLiteral c
  | reference path =>
    refine ⟨List.forall_mem_cons.2 ⟨hs, h.proper⟩, List.isChain_cons.2 ⟨?_, h.apart⟩⟩
    rintro _ _ ⟨⟩

theorem normal_foldr_pushSegment (h : ∀ s ∈ read, s.Proper) :
    Normal (read.foldr pushSegment []) := by
  induction read with
  | nil => exact normal_nil
  | cons s read ih =>
    obtain ⟨hs, hread⟩ := List.forall_mem_cons.1 h
    exact (ih hread).pushSegment hs

end Joining

theorem scan_eq_none_iff : scan t = none ↔
    ∃ read rest, Reads t read ('$' :: '{' :: rest) ∧ '}' ∉ rest := by
  constructor
  · intro h
    obtain ⟨read, rest, hread, rfl | ⟨tail, rfl, htail⟩⟩ := exists_reads t
    · rw [hread.scan_eq, scan] at h
      cases h
    · exact ⟨read, tail, hread, htail⟩
  · rintro ⟨read, rest, hread, hrest⟩
    rw [hread.scan_eq, scan, scanReference_of_not_mem hrest]
    rfl

theorem scan_eq_some_iff : scan t = some segments ↔
    Reads t (segments.flatMap pieces) [] ∧ Normal segments := by
  constructor
  · intro h
    obtain ⟨read, rest, hread, rfl | hopen⟩ := exists_reads t
    · rw [hread.scan_eq, scan, Option.map_some, Option.some.injEq] at h
      subst h
      rw [flatMap_foldr_pushSegment hread.forall_pieces_eq]
      exact ⟨hread, normal_foldr_pushSegment hread.forall_proper⟩
    · obtain ⟨tail, rfl, htail⟩ := hopen
      rw [scan_eq_none_iff.2 ⟨read, tail, hread, htail⟩] at h
      cases h
  · rintro ⟨hread, hnormal⟩
    rw [hread.scan_eq, scan, Option.map_some, hnormal.foldr_flatMap_pieces]

/-- The scan fails just if reading a template comes to a reference that is never closed. Its segments
are what has been read up to the end, in the one normal form that there is of it, and are read back
from what they are written as. -/
theorem scan_accepts_grammar (t : List Char) :
    (scan t = none ↔ ∃ read rest, Reads t read ('$' :: '{' :: rest) ∧ '}' ∉ rest) ∧
    (∀ segments, scan t = some segments ↔ Reads t (segments.flatMap pieces) [] ∧ Normal segments) ∧
    ∀ segments, scan t = some segments → scan (print segments) = some segments := by
  refine ⟨scan_eq_none_iff, fun segments => scan_eq_some_iff, fun segments h => ?_⟩
  exact scan_print (scan_eq_some_iff.1 h).2

/-- Three dollars in front of a brace are a dollar and a reference, and a dollar at the end stands
for itself although it is written twice. -/
theorem scan_accepts_grammar_dollars :
    let segments : List Segment := [.literal ['$'], .reference ['x'], .literal ['$']]
    scan "$$$\x7bx\x7d$".toList = some segments ∧ Normal segments ∧
    print segments = "$$$\x7bx\x7d$$".toList ∧
    scan "$$$\x7bx\x7d$$".toList = some segments := by
  intro segments
  have h : scan "$$$\x7bx\x7d$".toList = some segments := rfl
  obtain ⟨-, hread, hback⟩ := scan_accepts_grammar "$$$\x7bx\x7d$".toList
  exact ⟨h, ((hread _).1 h).2, rfl, hback _ h⟩

end Template
end FleetCatalog
