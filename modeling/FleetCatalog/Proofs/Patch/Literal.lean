import FleetCatalog.Proofs.Patch.Sources
import FleetCatalog.Proofs.Trace.Literal

/-! Components that are stored as they are given. With its dollars doubled a component is still a
component, which is read, written and traced part by part. What comes out of the tracing is the
component that was meant, down to the fields that it does not name, and that is what is stored. -/
namespace FleetCatalog

namespace Component
variable {f : String → String} {c : Component} {j : Value}

/-- Puts `f s` in the place of every string leaf `s`, name and kind included. -/
def mapStrings (f : String → String) (c : Component) : Component where
  name := f c.name
  kind := f c.kind
  properties := Value.mapStringsFields f c.properties
  extra := Value.mapStringsFields f c.extra

theorem known_mapStrings (hf : ∀ s, f s = "" ↔ s = "") (c : Component) :
    (c.mapStrings f).known = Value.mapStringsFields f c.known := by
  unfold known Encode.textUnlessEmpty mapStrings
  simp only [Value.mapStringsFields_append, hf]
  by_cases hkind : c.kind = "" <;>
    simp [hkind, Value.mapStringsFields, Value.mapStrings]

/-- The kind is left out where it is empty, so that `f` has to keep apart what is empty and what is
not. -/
theorem encode_mapStrings (hf : ∀ s, f s = "" ↔ s = "") (c : Component) :
    (c.mapStrings f).encode = c.encode.mapStrings f := by
  rw [encode_eq, encode_eq, Value.mapStrings, Value.mapStringsFields_append, known_mapStrings hf]
  rfl

theorem Apart.mapStrings (h : c.Apart) : (c.mapStrings f).Apart := by
  intro e he
  change e ∈ Value.mapStringsFields f c.extra at he
  rw [Value.mapStringsFields_eq_map] at he
  obtain ⟨e', he', rfl⟩ := List.mem_map.1 he
  exact h e' he'

theorem decode_mapStrings_encode (hf : ∀ s, f s = "" ↔ s = "") (h : c.Apart) :
    decode (c.encode.mapStrings f) = .ok (c.mapStrings f) := by
  rw [← encode_mapStrings hf]
  exact decode_encode h.mapStrings

end Component

namespace Patch

/-- A request to add a whole component that is given inline. -/
structure Request.AddsComponent (r : Request) (content : Value) : Prop where
  objectType : r.objectType = solutionType
  source : r.source = .inline
  action : r.action = .add
  component : r.component = ""
  content : r.content = some content

variable {κ : Type} [CatalogStore κ] {r : Request} {c : Component} {cs : List Component}

/-- If the evaluator undoes what was done to the strings of a component, its payload is traced to the
component. -/
theorem tracedPayload_mapStrings {t : Tracer} {f : String → String} (catalogs : κ)
    (hf : ∀ s, f s = "" ↔ s = "")
    (heval : ∀ s, t.evaluator (f s) (t.base.specialise r.overlay) = .ok (.string s))
    (h : r.AddsComponent (c.encode.mapStrings f)) (hc : c.Apart) :
    tracedPayload t catalogs r = .ok [("spec", c.encode)] := by
  have hread : Component.decode (r.content.getD .null) = .ok (c.mapStrings f) := by
    rw [h.content]
    exact Component.decode_mapStrings_encode hf hc
  have hraw : Untraced catalogs r [("spec", (c.mapStrings f).encode)] :=
    .whole h.source h.component hread
  have htrace : t.trace r.overlay (c.encode.mapStrings f) = .ok c.encode :=
    Tracer.trace_of_evaluates heval c.encode
  rw [Component.encode_mapStrings hf] at hraw
  exact tracedPayload_eq_ok_iff.2
    ⟨_, hraw, (Tracer.traceMapping_singleton "spec" _).2 ⟨c.encode, htrace, rfl⟩⟩

/-- Components among which one is put in the place of the first of its name, or at the end if there is
none. -/
inductive Placed (c : Component) (cs : List Component) : List Component → Prop
  | replaced {pre post : List Component} {d : Component} (h : First (named c.name) cs pre d post) :
      Placed c cs (pre ++ c :: post)
  | appended (h : ∀ d ∈ cs, d.name ≠ c.name) : Placed c cs (cs ++ [c])

theorem placed_patchFirst (c : Component) (cs : List Component) :
    (patchFirst (named c.name) c .add cs).changed = true ∧
      Placed c cs (patchFirst (named c.name) c .add cs).result := by
  rcases none_or_exists_first (named c.name) cs with hnone | ⟨pre, d, post, hfirst⟩
  · rw [patchFirst_of_none hnone]
    exact ⟨rfl, .appended (named_eq_false_iff.1 hnone)⟩
  · rw [patchFirst_of_first hfirst]
    exact ⟨rfl, .replaced hfirst⟩

/-- A component of which every dollar in a string is doubled is stored as the component itself, with
the fields that it does not name, their order and its numbers: whatever the templates of the stage can
see, adding it succeeds, and of the stored solutions just the one that is addressed is revised, by the
component in its place. -/
theorem literal_component_stored (base : Context) {st : Stores κ MemorySolutions} {inputs : Mapping}
    {j : Value} {s : Solution} (hr : Request.ofInputs inputs = .ok r)
    (hs : st.solutions.get r.objectName r.scope = .ok s) (hd : Component.decode j = .ok c)
    (hadds : r.AddsComponent (c.encode.mapStrings Template.escaped)) :
    ∃ solutions ds, process ⟨Template.evaluate, base⟩ st inputs = (.ok {}, { st with solutions }) ∧
      Placed c s.spec.components ds ∧
      st.solutions.Revision solutions r.objectName r.scope s.spec
        { s.spec with components := ds } := by
  have hapart : c.Apart := Component.apart_of_decode hd
  have heval (s : String) : Tracer.evaluator ⟨Template.evaluate, base⟩ (Template.escaped s)
      (base.specialise r.overlay) = .ok (.string s) := by
    dsimp only
    exact Template.evaluate_escaped s _
  have hpayload := tracedPayload_mapStrings st.catalogs
    (fun _ => Template.escaped_eq_empty_iff) heval hadds hapart
  have hpatch : patchComponents r [("spec", c.encode)] s.spec.components =
      .ok (patchFirst (named c.name) c .add s.spec.components) := by
    rw [patchComponents_whole hadds.component, hadds.action,
      payloadComponent_spec_eq_ok.2 (Component.decode_encode hapart)]
    rfl
  obtain ⟨hchanged, hplaced⟩ := placed_patchFirst c s.spec.components
  have hplan := plan_of_patch st hpayload hadds.objectType hs hpatch
  rw [if_pos hchanged] at hplan
  obtain ⟨solutions, hrun, hrevision⟩ := process_of_revision hr hs hplan
  exact ⟨solutions, _, hrun, hplaced, hrevision⟩

theorem addsComponent_patchShop (content : Value) :
    ∃ r, Request.ofInputs (patchShop "" "inline" content) = .ok r ∧ r.objectName = "shop" ∧
      r.scope = "default" ∧ r.AddsComponent content :=
  ⟨_, rfl, rfl, rfl, rfl, rfl, rfl, rfl, rfl⟩

/-- The name keeps its dollar, and what looks like a reference stays a text though there is a value for
it. -/
theorem literal_component_stored_reference :
    let web : Component := { name := "$web", extra := [("image", .string "$\x7bvalue\x7d")] }
    let old : Component := { name := "$web", kind := "old" }
    let st : Stores MemoryCatalogs MemorySolutions :=
      ⟨{}, (({} : MemorySolutions).upsert "shop" "default" { components := [old] }).2⟩
    ∃ after, process ⟨Template.evaluate, {}⟩ st
        (patchShop "" "inline" (web.encode.mapStrings Template.escaped)) = (.ok {}, after) ∧
      (after.solutions.get "shop" "default").map Solution.spec = .ok { components := [web] } := by
  intro web old st
  obtain ⟨r, hr, hname, hscope, hadds⟩ :=
    addsComponent_patchShop (web.encode.mapStrings Template.escaped)
  have hs : st.solutions.get r.objectName r.scope =
      .ok ⟨"shop", "default", { components := [old] }, generationTag 1⟩ := by
    rw [hname, hscope]
    rfl
  have hd : Component.decode web.encode = .ok web := rfl
  obtain ⟨solutions, ds, hrun, hplaced, hrevision⟩ := literal_component_stored {} hr hs hd hadds
  have hds : ds = [web] := by
    cases hplaced with
    | @replaced pre post d h =>
      have hsplit := h.split
      cases pre with
      | nil =>
        cases hsplit
        rfl
      | cons b pre => simp at hsplit
    | appended h => exact absurd rfl (h old List.mem_cons_self)
  subst hds
  obtain ⟨tag, hget⟩ := hrevision.get_new
  rw [hname, hscope] at hget
  refine ⟨_, hrun, ?_⟩
  rw [hget]
  rfl

end Patch
end FleetCatalog
