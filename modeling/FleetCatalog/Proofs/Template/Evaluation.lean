import Mathlib.Data.List.Forall2
import FleetCatalog.Template.Eval
import FleetCatalog.Proofs.Outcome
import FleetCatalog.Proofs.Template.Scan

/-! What a template is worth, from its segments. `Renders` says what text a segment has and `Fails`
why a reference has none; a template that is not one reference has the texts of all its segments in
order, or else the error of the first reference that fails. -/
namespace FleetCatalog.Template

/-- A segment has a text in a context. -/
inductive Renders (c : Context) : Segment → List Char → Prop
  | literal (text : List Char) : Renders c (.literal text) text
  | null {path : List Char} : c.resolve path = .ok .null → Renders c (.reference path) []
  | bool {path : List Char} {b : Bool} : c.resolve path = .ok (.bool b) →
      Renders c (.reference path) (if b then ['t', 'r', 'u', 'e'] else ['f', 'a', 'l', 's', 'e'])
  | number {path : List Char} {n : Number} : c.resolve path = .ok (.number n) →
      Renders c (.reference path) n.text
  | string {path : List Char} {s : String} : c.resolve path = .ok (.string s) →
      Renders c (.reference path) s.toList

/-- A reference has no text in a context: it leads nowhere, or to what is no scalar. -/
inductive Fails (c : Context) (path : List Char) : EvalError → Prop
  | unresolved {e : EvalError} : c.resolve path = .error e → Fails c path e
  | sequence {items : List Value} : c.resolve path = .ok (.sequence items) →
      Fails c path (.nonScalar (String.ofList path))
  | mapping {fs : List (String × Value)} : c.resolve path = .ok (.mapping fs) →
      Fails c path (.nonScalar (String.ofList path))

variable {c : Context} {path text : List Char} {s : Segment} {segments : List Segment} {e : EvalError}

theorem renderSegment_of_resolve {v : Value} (h : c.resolve path = .ok v) :
    renderSegment c (.reference path) = scalarText path v := by
  rw [renderSegment, h]
  rfl

theorem renderSegment_of_renders (h : Renders c s text) : renderSegment c s = .ok text := by
  cases h with
  | literal => rfl
  | null h => exact renderSegment_of_resolve h
  | bool h => exact renderSegment_of_resolve h
  | number h => exact renderSegment_of_resolve h
  | string h => exact renderSegment_of_resolve h

theorem renderSegment_of_fails (h : Fails c path e) :
    renderSegment c (.reference path) = .error e := by
  cases h with
  | unresolved h =>
    rw [renderSegment, h]
    rfl
  | sequence h => exact renderSegment_of_resolve h
  | mapping h => exact renderSegment_of_resolve h

/-- A segment has a text, unless it is a reference that fails. -/
theorem renders_or_fails (c : Context) (s : Segment) :
    (∃ text, Renders c s text) ∨ ∃ path e, s = .reference path ∧ Fails c path e := by
  cases s with
  | literal text => exact .inl ⟨text, .literal text⟩
  | reference path =>
    cases h : c.resolve path with
    | error e => exact .inr ⟨path, e, rfl, .unresolved h⟩
    | ok v =>
      cases v with
      | null => exact .inl ⟨_, .null h⟩
      | bool b => exact .inl ⟨_, .bool h⟩
      | number n => exact .inl ⟨_, .number h⟩
      | string s => exact .inl ⟨_, .string h⟩
      | sequence items => exact .inr ⟨path, _, rfl, .sequence h⟩
      | mapping fs => exact .inr ⟨path, _, rfl, .mapping h⟩

theorem renderSegment_eq_ok_iff : renderSegment c s = .ok text ↔ Renders c s text := by
  constructor
  · intro h
    rcases renders_or_fails c s with ⟨text', hs⟩ | ⟨path, e, rfl, hs⟩
    · rw [renderSegment_of_renders hs] at h
      cases h
      exact hs
    · rw [renderSegment_of_fails hs] at h
      cases h
  · exact renderSegment_of_renders

theorem renderSegment_eq_error_iff :
    renderSegment c s = .error e ↔ ∃ path, s = .reference path ∧ Fails c path e := by
  constructor
  · intro h
    rcases renders_or_fails c s with ⟨text, hs⟩ | ⟨path, e', rfl, hs⟩
    · rw [renderSegment_of_renders hs] at h
      cases h
    · rw [renderSegment_of_fails hs] at h
      cases h
      exact ⟨path, rfl, hs⟩
  · rintro ⟨path, rfl, hs⟩
    exact renderSegment_of_fails hs

theorem renderAll_eq_ok_iff : renderAll c segments = .ok text ↔
    ∃ texts, List.Forall₂ (Renders c) segments texts ∧ text = texts.flatten := by
  induction segments generalizing text with
  | nil =>
    constructor
    · intro h
      cases h
      exact ⟨[], .nil, rfl⟩
    · rintro ⟨texts, hs, rfl⟩
      cases hs
      rfl
  | cons s segments ih =>
    simp only [renderAll, Except.bind_eq_ok]
    constructor
    · rintro ⟨first, hfirst, rest, hrest, h⟩
      cases h
      obtain ⟨texts, htexts, rfl⟩ := ih.1 hrest
      exact ⟨first :: texts, .cons (renderSegment_eq_ok_iff.1 hfirst) htexts, rfl⟩
    · rintro ⟨_, hs, rfl⟩
      cases hs with
      | cons hfirst htexts =>
        exact ⟨_, renderSegment_eq_ok_iff.2 hfirst, _, ih.2 ⟨_, htexts, rfl⟩, rfl⟩

/-- The first reference that fails decides how segments fail. -/
theorem renderAll_eq_error_iff : renderAll c segments = .error e ↔
    ∃ before path after, segments = before ++ .reference path :: after ∧
      (∀ s ∈ before, ∃ text, Renders c s text) ∧ Fails c path e := by
  induction segments with
  | nil =>
    constructor
    · intro h
      cases h
    · rintro ⟨before, path, after, h, -, -⟩
      exact absurd h (by simp)
  | cons s segments ih =>
    simp only [renderAll, Except.bind_eq_error]
    constructor
    · rintro (h | ⟨text, htext, h | ⟨rest, -, h⟩⟩)
      · obtain ⟨path, rfl, hs⟩ := renderSegment_eq_error_iff.1 h
        exact ⟨[], path, segments, rfl, by simp, hs⟩
      · obtain ⟨before, path, after, rfl, hbefore, hs⟩ := ih.1 h
        have hfirst : ∃ text, Renders c s text := ⟨text, renderSegment_eq_ok_iff.1 htext⟩
        exact ⟨s :: before, path, after, rfl, List.forall_mem_cons.2 ⟨hfirst, hbefore⟩, hs⟩
      · cases h
    · rintro ⟨before, path, after, hsplit, hbefore, hs⟩
      cases before with
      | nil =>
        cases hsplit
        exact .inl (renderSegment_of_fails hs)
      | cons b before =>
        cases hsplit
        obtain ⟨⟨text, htext⟩, hbefore⟩ := List.forall_mem_cons.1 hbefore
        exact .inr ⟨text, renderSegment_of_renders htext,
          .inl (ih.2 ⟨before, path, after, rfl, hbefore, hs⟩)⟩

theorem evaluateSegments_of_ne (c : Context) (h : ∀ path, segments ≠ [.reference path]) :
    evaluateSegments c segments =
      (renderAll c segments).map fun text => .string (String.ofList text) := by
  unfold evaluateSegments
  split
  · exact absurd rfl (h _)
  · rfl

theorem evaluate_of_scan {t : List Char} (h : scan t = some segments) (c : Context) :
    evaluate (String.ofList t) c = evaluateSegments c segments := by
  simp only [evaluate, String.toList_ofList, h]

theorem evaluate_of_scan_eq_none {t : List Char} (h : scan t = none) (c : Context) :
    evaluate (String.ofList t) c = .error (.unclosed (String.ofList t)) := by
  simp only [evaluate, String.toList_ofList, h]

/-- A template is worth what its segments are. One reference alone stands for the value found, of any
shape. Any other segments stand for their texts in order, or fail as the first reference does that
fails. An opened reference behind them fails the whole template, whatever they stand for. -/
theorem evaluate_print (h : Normal segments) (c : Context) :
    (∀ path, segments = [.reference path] →
      evaluate (String.ofList (print segments)) c = c.resolve path) ∧
    ((∀ path, segments ≠ [.reference path]) →
      (∀ v, evaluate (String.ofList (print segments)) c = .ok v ↔
        ∃ texts, List.Forall₂ (Renders c) segments texts ∧
          v = .string (String.ofList texts.flatten)) ∧
      ∀ e, evaluate (String.ofList (print segments)) c = .error e ↔
        ∃ before path after, segments = before ++ .reference path :: after ∧
          (∀ s ∈ before, ∃ text, Renders c s text) ∧ Fails c path e) ∧
    ∀ rest, '}' ∉ rest → evaluate (String.ofList (print segments ++ '$' :: '{' :: rest)) c =
      .error (.unclosed (String.ofList (print segments ++ '$' :: '{' :: rest))) := by
  rw [evaluate_of_scan (scan_print h)]
  refine ⟨?_, fun hne => ⟨fun v => ?_, fun e => ?_⟩, fun rest hrest => ?_⟩
  · rintro path rfl
    rfl
  · rw [evaluateSegments_of_ne c hne, Except.map_eq_ok]
    constructor
    · rintro ⟨text, htext, rfl⟩
      obtain ⟨texts, htexts, rfl⟩ := renderAll_eq_ok_iff.1 htext
      exact ⟨texts, htexts, rfl⟩
    · rintro ⟨texts, htexts, rfl⟩
      exact ⟨texts.flatten, renderAll_eq_ok_iff.2 ⟨texts, htexts, rfl⟩, rfl⟩
  · rw [evaluateSegments_of_ne c hne, Except.map_eq_error, renderAll_eq_error_iff]
  · exact evaluate_of_scan_eq_none (scan_print_open h.proper hrest) c

/-- A dollar before a reference is kept apart from it, and a reference that fails gives way to one
that is not closed. -/
theorem evaluate_print_dollar :
    Normal [.literal ['$'], .reference "value".toList] ∧
    evaluate (String.ofList (print [.literal ['$'], .reference "value".toList]))
      { value := some (.string "x") } = .ok (.string "$x") ∧
    evaluate (String.ofList (print [.literal ['$'], .reference "value".toList])) {} =
      .error (.referenceNotFound "value") ∧
    evaluate (String.ofList (print [.literal ['$'], .reference "value".toList] ++ ['$', '{'])) {} =
      .error (.unclosed "$$$\x7bvalue\x7d$\x7b") := by
  have h : Normal [.literal ['$'], .reference "value".toList] := ⟨by decide, by simp [Segment.isLiteral]⟩
  have hne : ∀ path, [.literal ['$'], .reference "value".toList] ≠ [Segment.reference path] := by simp
  refine ⟨h, ?_, ?_, (evaluate_print h {}).2.2 [] (by simp)⟩
  · exact (((evaluate_print h _).2.1 hne).1 _).2
      ⟨[['$'], ['x']], .cons (.literal _) (.cons (.string (s := "x") rfl) .nil), rfl⟩
  · exact (((evaluate_print h _).2.1 hne).2 _).2 ⟨[.literal ['$']], _, [], rfl,
      by simpa using ⟨['$'], .literal ['$']⟩, .unresolved rfl⟩

end FleetCatalog.Template
