import FleetCatalog.Proofs.Record.Component
import FleetCatalog.Proofs.Trace.Resolution

/-! Components as they are traced. The fields of a mapping are traced one by one, so that what comes out
reads as the component that went in with its parts traced. Neither the order of the fields nor a
default that is spelled out counts: mappings that read as one component are traced alike. -/
namespace FleetCatalog

/-- A part of a record that was read before the fields are traversed, and the same part after. -/
theorem Decode.Given.traversed {ε α : Type} {g : String → Except ε Value} {key : String}
    {decode : Value → Except DecodeError α} {encode : α → Value} {fs gs : Mapping} {old a : α}
    (hdecode : ∀ v a, decode v = .ok a ↔ v = encode a)
    (hold : (encode old).traverse g = .ok (encode old)) (hgs : Value.traverseFields g fs = .ok gs)
    (ha : Decode.Given decode key fs old a) :
    ∃ w, (encode a).traverse g = .ok w ∧ ∀ b, Decode.Given decode key gs old b ↔ w = encode b := by
  rcases Value.get?_of_traverseFields hgs key with ⟨hfs, hgs⟩ | ⟨v, w, hfs, hv, hgs⟩
  · rw [Decode.given_of_none hfs] at ha
    subst ha
    refine ⟨encode a, hold, fun b => ?_⟩
    rw [Decode.given_of_none hgs, ← hdecode, (hdecode _ _).2 rfl, Except.ok.injEq, eq_comm]
  · rw [Decode.given_of_some hfs, hdecode] at ha
    subst ha
    refine ⟨w, hv, fun b => ?_⟩
    rw [Decode.given_of_some hgs, hdecode]

namespace Component
variable {ε : Type} {g : String → Except ε Value} {fs fs' gs : Mapping} {c d : Component}

/-- The parts of a component, each of them traversed. -/
structure Traversed (g : String → Except ε Value) (c : Component) (name kind properties : Value)
    (extra : Mapping) : Prop where
  name : (Value.string c.name).traverse g = .ok name
  kind : (Value.string c.kind).traverse g = .ok kind
  properties : (Value.mapping c.properties).traverse g = .ok properties
  extra : Value.traverseFields g c.extra = .ok extra

/-- If the fields can be traversed, so can the parts of the component that they say. The kind is one of
them even where no field says it: it is empty then. -/
theorem Says.traversed (h : Says fs c) (hempty : g "" = .ok (.string ""))
    (hgs : Value.traverseFields g fs = .ok gs) :
    ∃ name kind properties extra, Traversed g c name kind properties extra ∧
      ∀ d, Says gs d ↔ name = .string d.name ∧ kind = .string d.kind ∧
        properties = .mapping d.properties ∧ d.extra = extra := by
  obtain ⟨name, hname, hget⟩ : ∃ name, (Value.string c.name).traverse g = .ok name ∧
      Fields.get? "name" gs = some name := by
    rcases Value.get?_of_traverseFields hgs "name" with ⟨hnone, -⟩ | ⟨v, w, hv, hw, hget⟩
    · rw [h.name] at hnone
      cases hnone
    · rw [h.name] at hv
      cases hv
      exact ⟨w, hw, hget⟩
  obtain ⟨kind, hkind, hsaysKind⟩ := h.kind.traversed (fun _ _ => Decode.text_eq_ok_iff) hempty hgs
  obtain ⟨properties, hproperties, hsaysProperties⟩ :=
    h.properties.traversed (fun _ _ => Decode.mapping_eq_ok_iff) rfl hgs
  have hextra : Value.traverseFields g c.extra = .ok (others gs) := by
    rw [h.extra]
    exact Value.traverseFields_filter hgs fun key => decide (key ∉ declared)
  refine ⟨name, kind, properties, others gs, ⟨hname, hkind, hproperties, hextra⟩, fun d => ?_⟩
  rw [← hsaysKind, ← hsaysProperties]
  constructor
  · intro hd
    rw [hd.name, Option.some.injEq] at hget
    exact ⟨hget.symm, hd.kind, hd.properties, hd.extra⟩
  · rintro ⟨rfl, hd, hd', hd''⟩
    exact ⟨hget, hd, hd', hd''⟩

/-- If the parts of a component can be traversed, so can the fields that say it. -/
theorem Traversed.exists_fields {name kind properties : Value} {extra : Mapping}
    (h : Traversed g c name kind properties extra) (hfs : Fields.Distinct fs) (hc : Says fs c) :
    ∃ gs, Value.traverseFields g fs = .ok gs := by
  rw [Value.exists_traverseFields_iff]
  intro e he
  obtain rfl | rfl | rfl | ⟨-, he⟩ := hc.cases hfs he
  · exact ⟨name, h.name⟩
  · exact ⟨kind, h.kind⟩
  · exact ⟨properties, h.properties⟩
  · exact Value.exists_traverseFields_iff.1 ⟨extra, h.extra⟩ e he

theorem Traversed.unique {name name' kind kind' properties properties' : Value}
    {extra extra' : Mapping} (h : Traversed g c name kind properties extra)
    (h' : Traversed g c name' kind' properties' extra') :
    name = name' ∧ kind = kind' ∧ properties = properties' ∧ extra = extra' :=
  ⟨Except.ok.inj (h.name.symm.trans h'.name), Except.ok.inj (h.kind.symm.trans h'.kind),
    Except.ok.inj (h.properties.symm.trans h'.properties),
    Except.ok.inj (h.extra.symm.trans h'.extra)⟩

/-- Mappings that read as one component are traversed alike: the one if the other is, and both then
read as the same component or as none. -/
theorem traversed_alike (hempty : g "" = .ok (.string "")) (hfs : Fields.Distinct fs)
    (hfs' : Fields.Distinct fs') (h : decode (.mapping fs) = .ok c)
    (h' : decode (.mapping fs') = .ok c) (hgs : Value.traverseFields g fs = .ok gs) :
    ∃ gs', Value.traverseFields g fs' = .ok gs' ∧
      ∀ d, decode (.mapping gs) = .ok d ↔ decode (.mapping gs') = .ok d := by
  obtain ⟨name, kind, properties, extra, hparts, hsays⟩ :=
    (says_of_decode hfs h).traversed hempty hgs
  obtain ⟨gs', hgs'⟩ := hparts.exists_fields hfs' (says_of_decode hfs' h')
  obtain ⟨name', kind', properties', extra', hparts', hsays'⟩ :=
    (says_of_decode hfs' h').traversed hempty hgs'
  obtain ⟨rfl, rfl, rfl, rfl⟩ := hparts.unique hparts'
  refine ⟨gs', hgs', fun d => ?_⟩
  rw [decode_mapping_eq_ok_iff (Value.distinct_of_traverseFields hgs hfs),
    decode_mapping_eq_ok_iff (Value.distinct_of_traverseFields hgs' hfs'), hsays, hsays']

end Component

namespace Tracer
variable {t : Tracer} {overlay : Overlay}

theorem traceMapping_singleton (key : String) (v : Value) {payload : Mapping} :
    t.traceMapping overlay [(key, v)] = .ok payload ↔
      ∃ w, t.trace overlay v = .ok w ∧ payload = [(key, w)] := by
  rw [traceMapping_eq_traverseFields, trace_eq_traverse, Value.traverseFields_eq_ok_iff,
    List.forall₂_cons_left_iff]
  constructor
  · rintro ⟨⟨k, w⟩, ws, ⟨rfl, hw⟩, hws, rfl⟩
    cases hws
    exact ⟨w, hw, rfl⟩
  · rintro ⟨w, hw, rfl⟩
    exact ⟨(key, w), [], ⟨rfl, hw⟩, .nil, rfl⟩

/-- Values that read as one component are traced alike, if the empty text stands for itself. -/
theorem trace_alike {fs fs' : Mapping} {c : Component} {w : Value}
    (hempty : t.evaluator "" (t.base.specialise overlay) = .ok (.string ""))
    (hfs : Fields.Distinct fs) (hfs' : Fields.Distinct fs')
    (h : Component.decode (.mapping fs) = .ok c) (h' : Component.decode (.mapping fs') = .ok c)
    (hw : t.trace overlay (.mapping fs) = .ok w) :
    ∃ w', t.trace overlay (.mapping fs') = .ok w' ∧
      ∀ d, Component.decode w = .ok d ↔ Component.decode w' = .ok d := by
  rw [trace_eq_traverse, Value.traverse, Except.bind_eq_ok] at hw
  obtain ⟨gs, hgs, hw⟩ := hw
  cases hw
  obtain ⟨gs', hgs', hread⟩ := Component.traversed_alike (leaf_of_text hempty) hfs hfs' h h' hgs
  refine ⟨.mapping gs', ?_, hread⟩
  rw [trace_eq_traverse, Value.traverse, hgs']
  rfl

end Tracer
end FleetCatalog
