import FleetCatalog.Proofs.Template.Evaluation
import FleetCatalog.Proofs.Trace.Resolution

/-! Data that is not meant as templates goes through tracing unchanged once its dollars are doubled:
each of its leaves is then at most one literal, whatever else stands in it and whatever the context
holds, and takes no round. -/
namespace FleetCatalog

namespace Template

/-- A text as a template that stands for it. -/
def escaped (s : String) : String := String.ofList (escape s.toList)

theorem escaped_eq_self {s : String} (h : '$' ∉ s.toList) : escaped s = s := by
  rw [escaped, escape_eq_self h, String.ofList_toList]

theorem escaped_eq_empty_iff {s : String} : escaped s = "" ↔ s = "" := by
  have hescape (cs : List Char) : escape cs = [] ↔ cs = [] := by
    cases cs with
    | nil => exact iff_of_true rfl rfl
    | cons c cs => by_cases hc : c = '$' <;> simp [escape, hc]
  rw [escaped, ← String.toList_eq_nil_iff, String.toList_ofList, hescape,
    String.toList_eq_nil_iff]

theorem evaluate_escaped (s : String) (c : Context) : evaluate (escaped s) c = .ok (.string s) := by
  have hscan := scan_escape_append s.toList []
  rw [List.append_nil, scan, Option.map_some] at hscan
  rw [escaped, evaluate_of_scan hscan]
  by_cases hs : s.toList = []
  · rw [String.toList_eq_nil_iff.1 hs]
    rfl
  · have hvalue : evaluateSegments c [.literal s.toList] =
        .ok (.string (String.ofList (s.toList ++ []))) := rfl
    rw [foldr_pushLiteral hs (by simp), hvalue, List.append_nil, String.ofList_toList]

end Template

namespace Tracer

theorem trace_of_evaluates {t : Tracer} {overlay : Overlay} {f : String → String}
    (h : ∀ s, t.evaluator (f s) (t.base.specialise overlay) = .ok (.string s)) (v : Value) :
    t.trace overlay (v.mapStrings f) = .ok v := by
  rw [trace_eq_traverse]
  exact Value.traverse_mapStrings (fun s => leaf_of_text (h s)) v

/-- Data with every dollar of its strings doubled is traced to the data, the order of keys and the
kinds of numbers included, and data without dollars to itself. -/
theorem literal_data_survives (base : Context) (overlay : Overlay) (v : Value) :
    Tracer.trace ⟨Template.evaluate, base⟩ overlay (v.mapStrings Template.escaped) = .ok v ∧
    ((∀ s ∈ v.leaves, '$' ∉ s.toList) →
      Tracer.trace ⟨Template.evaluate, base⟩ overlay v = .ok v) := by
  have hleaf (s : String) : Tracer.evaluator ⟨Template.evaluate, base⟩ (Template.escaped s)
      (base.specialise overlay) = .ok (.string s) := by
    dsimp only
    exact Template.evaluate_escaped s _
  have hall (v : Value) :
      Tracer.trace ⟨Template.evaluate, base⟩ overlay (v.mapStrings Template.escaped) = .ok v :=
    trace_of_evaluates hleaf v
  refine ⟨hall v, fun h => ?_⟩
  have hself : v.mapStrings Template.escaped = v :=
    Value.mapStrings_eq_self fun s hs => Template.escaped_eq_self (h s hs)
  have htraced := hall v
  rwa [hself] at htraced

/-- Braces alone open no reference. -/
theorem literal_data_survives_braces :
    (∀ s ∈ (Value.sequence [.null, .string "\x7bvalue\x7d"]).leaves, '$' ∉ s.toList) ∧
    Tracer.trace ⟨Template.evaluate, {}⟩ {} (.sequence [.null, .string "\x7bvalue\x7d"]) =
      .ok (.sequence [.null, .string "\x7bvalue\x7d"]) := by
  have h : ∀ s ∈ (Value.sequence [.null, .string "\x7bvalue\x7d"]).leaves, '$' ∉ s.toList := by
    decide
  exact ⟨h, (literal_data_survives {} {} _).2 h⟩

end Tracer
end FleetCatalog
