import Mathlib.Data.List.Chain
import FleetCatalog.Template

/-! Reading a template inverts writing it. What is read from a written segment goes in front of what
is read from the rest; a literal that is empty or that stands before another one leaves no segment of
its own, so that only segments in normal form are read back as they are. -/
namespace FleetCatalog

def Segment.isLiteral : Segment → Bool
  | .literal _ => true
  | .reference _ => false

/-- A literal that is not empty, or a path that no closing brace ends early. -/
def Segment.Proper : Segment → Prop
  | .literal text => text ≠ []
  | .reference path => '}' ∉ path

instance : DecidablePred Segment.Proper := fun s => by
  cases s <;> unfold Segment.Proper <;> infer_instance

namespace Template

/-- Segments of which no two literals are adjacent, none empty, and whose paths can be written. -/
structure Normal (segments : List Segment) : Prop where
  proper : ∀ s ∈ segments, s.Proper
  apart : segments.IsChain fun a b => a.isLiteral = true → b.isLiteral = false

/-- Puts a segment in front; the characters of a literal go into the literal that is there. -/
def pushSegment : Segment → List Segment → List Segment
  | .literal text, r => text.foldr pushLiteral r
  | .reference path, r => .reference path :: r

variable {path cs r : List Char} {segments : List Segment} {s : Segment}

theorem scan_of_ne {c : Char} (h : c ≠ '$') (r : List Char) :
    scan (c :: r) = (scan r).map (pushLiteral c) := by
  rw [scan]
  · rintro r' rfl -
    exact h rfl
  · rintro r' rfl -
    exact h rfl

theorem scan_escape_append (text r : List Char) :
    scan (escape text ++ r) = (scan r).map fun rest => text.foldr pushLiteral rest := by
  induction text with
  | nil => simp [escape]
  | cons c text ih =>
    by_cases hc : c = '$'
    · subst hc
      simp only [escape, if_true, List.cons_append, scan, ih, Option.map_map]
      rfl
    · simp only [escape, if_neg hc, List.cons_append, scan_of_ne hc, ih, Option.map_map]
      rfl

theorem escape_eq_self (h : '$' ∉ cs) : escape cs = cs := by
  induction cs with
  | nil => rfl
  | cons c cs ih =>
    obtain ⟨hc, hcs⟩ := List.ne_and_not_mem_of_not_mem_cons h
    rw [escape, if_neg hc.symm, ih hcs]

theorem scanReference_of_ne {c : Char} (h : c ≠ '}') (r : List Char) :
    scanReference (c :: r) = (scanReference r).map fun p => (c :: p.1, p.2) := by
  rw [scanReference]
  rintro rfl
  exact h rfl

theorem scanReference_append (h : '}' ∉ path) (r : List Char) :
    scanReference (path ++ '}' :: r) = (scan r).map fun rest => (path, rest) := by
  induction path with
  | nil => rfl
  | cons c path ih =>
    obtain ⟨hc, hpath⟩ := List.ne_and_not_mem_of_not_mem_cons h
    rw [List.cons_append, scanReference_of_ne hc.symm, ih hpath, Option.map_map]
    rfl

/-- A reference that is never closed has no path. -/
theorem scanReference_of_not_mem (h : '}' ∉ cs) : scanReference cs = none := by
  induction cs with
  | nil => rfl
  | cons c cs ih =>
    obtain ⟨hc, hcs⟩ := List.ne_and_not_mem_of_not_mem_cons h
    rw [scanReference_of_ne hc.symm, ih hcs]
    rfl

theorem scan_printSegment_append (h : s.Proper) (r : List Char) :
    scan (printSegment s ++ r) = (scan r).map (pushSegment s) := by
  cases s with
  | literal text => exact scan_escape_append text r
  | reference path =>
    have hwritten : printSegment (.reference path) ++ r = '$' :: '{' :: (path ++ '}' :: r) := by
      simp [printSegment]
    rw [hwritten, scan, scanReference_append h, Option.map_map]
    rfl

/-- Written segments are read one after another, whatever follows them. -/
theorem scan_print_append (h : ∀ s ∈ segments, s.Proper) (r : List Char) :
    scan (print segments ++ r) = (scan r).map fun rest => segments.foldr pushSegment rest := by
  induction segments with
  | nil => simp [print]
  | cons s segments ih =>
    have hsplit : print (s :: segments) ++ r = printSegment s ++ (print segments ++ r) := by
      simp [print]
    rw [hsplit, scan_printSegment_append (h s List.mem_cons_self),
      ih fun s hs => h s (List.mem_cons_of_mem _ hs), Option.map_map]
    rfl

/-- A literal that is not empty stays one segment unless it comes to stand before another literal. -/
theorem foldr_pushLiteral {text : List Char} (h : text ≠ [])
    (hr : ∀ s ∈ segments.head?, s.isLiteral = false) :
    text.foldr pushLiteral segments = .literal text :: segments := by
  induction text with
  | nil => exact absurd rfl h
  | cons c text ih =>
    cases text with
    | nil =>
      cases segments with
      | nil => rfl
      | cons s segments =>
        cases s with
        | literal text => cases hr _ rfl
        | reference path => rfl
    | cons d text =>
      rw [List.foldr_cons, ih (List.cons_ne_nil d text)]
      rfl

theorem Normal.tail (h : Normal (s :: segments)) : Normal segments :=
  ⟨fun s hs => h.proper s (List.mem_cons_of_mem _ hs), h.apart.tail⟩

theorem Normal.foldr_pushSegment (h : Normal segments) : segments.foldr pushSegment [] = segments := by
  induction segments with
  | nil => rfl
  | cons s segments ih =>
    rw [List.foldr_cons, ih h.tail]
    cases s with
    | reference path => rfl
    | literal text =>
      -- the only place where adjacent literals would run together
      refine foldr_pushLiteral (h.proper _ List.mem_cons_self) fun next hnext => ?_
      exact (List.isChain_cons.1 h.apart).1 next hnext rfl

/-- Segments in normal form are read back. -/
theorem scan_print (h : Normal segments) : scan (print segments) = some segments := by
  have hread := scan_print_append h.proper []
  rw [List.append_nil] at hread
  rw [hread, scan, Option.map_some, h.foldr_pushSegment]

/-- A reference that is opened and never closed spoils the template, whatever comes before it. -/
theorem scan_print_open (h : ∀ s ∈ segments, s.Proper) (hcs : '}' ∉ cs) :
    scan (print segments ++ '$' :: '{' :: cs) = none := by
  rw [scan_print_append h, scan, scanReference_of_not_mem hcs]
  rfl

end Template
end FleetCatalog
