import FleetCatalog.Proofs.Patch.Effect
import FleetCatalog.Proofs.Trace.Component
import FleetCatalog.Template.Eval

/-! The two sources of a payload. What is given inline and the same taken from a catalog have the same
effect. For a component this is so although an inline one is read and written again before it is
traced: what that changes of it, its order and its defaults, tracing and reading do not depend on. -/
namespace FleetCatalog.Patch

/-- Two stage inputs that ask for the same, the one with a content of its own, the other with the
properties of the catalog that it names. -/
structure Sources (inline catalog : Mapping) (content : Value) (name : String) : Prop where
  source_inline : Source.named (inputText inline "patchSource") = .ok .inline
  source_catalog : Source.named (inputText catalog "patchSource") = .ok .catalog
  content_inline : Fields.get? "patchContent" inline = some content
  content_catalog : Fields.get? "patchContent" catalog = some (.string name)
  others : ∀ key, key ≠ "patchSource" → key ≠ "patchContent" →
    Fields.get? key inline = Fields.get? key catalog

/-- Requests that differ at most in where the payload comes from. -/
def Request.SameTarget (r r' : Request) : Prop :=
  r' = { r with source := r'.source, content := r'.content }

section Target
variable {r r' : Request}

theorem Request.SameTarget.symm (h : r.SameTarget r') : r'.SameTarget r := by
  unfold SameTarget at h ⊢
  rw [h]

theorem Request.SameTarget.objectName_eq (h : r.SameTarget r') : r.objectName = r'.objectName := by
  rw [h]

theorem Request.SameTarget.scope_eq (h : r.SameTarget r') : r.scope = r'.scope := by
  rw [h]
  rfl

theorem Request.SameTarget.overlay_eq (h : r.SameTarget r') : r.overlay = r'.overlay := by
  rw [h]
  rfl

theorem Request.SameTarget.component_eq (h : r.SameTarget r') : r.component = r'.component := by
  rw [h]

theorem Request.SameTarget.planTraced_eq {σ : Type} [SolutionStore σ] (h : r.SameTarget r')
    (solutions : σ) (payload : Mapping) :
    planTraced solutions r payload = planTraced solutions r' payload := by
  rw [h]
  rfl

end Target

variable {inline catalog : Mapping} {content : Value} {name : String}

theorem Sources.inputText_eq (h : Sources inline catalog content name) {key : String}
    (hsource : key ≠ "patchSource") (hcontent : key ≠ "patchContent") :
    inputText inline key = inputText catalog key := by
  unfold inputText
  rw [h.others key hsource hcontent]

/-- The inputs are read as requests for the same. -/
theorem Sources.requests (h : Sources inline catalog content name) :
    ∃ r r', Request.ofInputs inline = .ok r ∧ Request.ofInputs catalog = .ok r' ∧
      r.source = .inline ∧ r.content = some content ∧ r.component = inputText inline "component" ∧
      r'.source = .catalog ∧ r'.content = some (.string name) ∧ r.SameTarget r' := by
  unfold Request.ofInputs
  rw [h.source_inline, h.source_catalog, h.content_inline, h.content_catalog]
  refine ⟨_, _, rfl, rfl, rfl, rfl, rfl, rfl, rfl, ?_⟩
  have hcontext := h.others "context" (by decide) (by decide)
  unfold Request.SameTarget
  simp (disch := decide) only [h.inputText_eq, hcontext]

section Plan
variable {κ σ : Type} [CatalogStore κ] [SolutionStore σ] {t : Tracer} {st : Stores κ σ}
  {r r' : Request} {v w v' w' : Value} {spec : Option SolutionSpec}

theorem payloadComponent_spec_eq_ok {d : Component} :
    payloadComponent [("spec", w)] = .ok d ↔ Component.decode w = .ok d :=
  Except.mapError_eq_ok

/-- A request for a whole component depends on what its payload reads as alone. -/
theorem planTraced_of_alike {solutions : σ} (hcomponent : r.component = "")
    (hread : ∀ d, Component.decode w = .ok d ↔ Component.decode w' = .ok d)
    (h : planTraced solutions r [("spec", w)] = .ok spec) :
    planTraced solutions r [("spec", w')] = .ok spec := by
  rcases planTraced_eq_ok h with ⟨htype, rfl⟩ | ⟨s, p, htype, hs, hp, rfl⟩
  · exact if_neg htype
  · refine planTraced_of_patch htype hs ?_
    rw [patchComponents_whole hcomponent, Except.map_eq_ok] at hp ⊢
    obtain ⟨d, hd, hp⟩ := hp
    rw [payloadComponent_spec_eq_ok, hread] at hd
    exact ⟨d, payloadComponent_spec_eq_ok.2 hd, hp⟩

theorem plan_eq_of_payload (hsame : r.SameTarget r')
    (hraw : rawPayload st.catalogs r = rawPayload st.catalogs r') : plan t st r = plan t st r' := by
  have htraced : tracedPayload t st.catalogs r = tracedPayload t st.catalogs r' := by
    unfold tracedPayload
    rw [hraw, hsame.overlay_eq]
  have hplan : planTraced st.solutions r = planTraced st.solutions r' := by
    funext payload
    exact hsame.planTraced_eq st.solutions payload
  rw [plan_eq, plan_eq, htraced, hplan]

/-- Requests for the same whole component have the same plan if their payloads are traced alike. -/
theorem plan_of_alike (hsame : r.SameTarget r') (hcomponent : r.component = "")
    (hraw : rawPayload st.catalogs r = .ok [("spec", v)])
    (hraw' : rawPayload st.catalogs r' = .ok [("spec", v')])
    (halike : ∀ w, t.trace r.overlay v = .ok w → ∃ w', t.trace r.overlay v' = .ok w' ∧
      ∀ d, Component.decode w = .ok d ↔ Component.decode w' = .ok d)
    (h : plan t st r = .ok spec) : plan t st r' = .ok spec := by
  rw [plan_eq, Except.bind_eq_ok] at h ⊢
  obtain ⟨payload, hpayload, htraced⟩ := h
  unfold tracedPayload at hpayload ⊢
  rw [hraw] at hpayload
  obtain ⟨w, hw, rfl⟩ := (Tracer.traceMapping_singleton "spec" v).1 hpayload
  obtain ⟨w', hw', hread⟩ := halike w hw
  rw [hsame.overlay_eq] at hw'
  rw [hraw']
  refine ⟨[("spec", w')], (Tracer.traceMapping_singleton "spec" v').2 ⟨w', hw', rfl⟩, ?_⟩
  rw [← hsame.planTraced_eq]
  exact planTraced_of_alike hcomponent hread htraced

end Plan

/-- A payload from a catalog has the effect of the same payload inline. For an entry or a property the
two give the same answer and leave the same stores; for a whole component, if one of them succeeds,
so does the other, and leaves the same stores. -/
theorem sources_agree {κ σ : Type} [CatalogStore κ] [SolutionStore σ] (base : Context)
    {st : Stores κ σ} {c : Catalog} (h : Sources inline catalog content name)
    (hc : CatalogStore.get st.catalogs name = .ok c) :
    (inputText inline "component" ≠ "" → content = .mapping c.spec.properties →
      process ⟨Template.evaluate, base⟩ st inline = process ⟨Template.evaluate, base⟩ st catalog) ∧
    (inputText inline "component" = "" → content.WellFormed →
      (∃ d, Component.decode content = .ok d) → c.spec.properties = [("spec", content)] →
      ∀ result after, process ⟨Template.evaluate, base⟩ st inline = (.ok result, after) ↔
        process ⟨Template.evaluate, base⟩ st catalog = (.ok result, after)) := by
  obtain ⟨r, r', hr, hr', hsource, hcontent, hcomponent, hsource', hcontent', hsame⟩ := h.requests
  have hraw' : rawPayload st.catalogs r' = .ok c.spec.properties :=
    rawPayload_eq_ok_iff.2 (.catalog hsource' hcontent' hc)
  rw [← hcomponent]
  constructor
  · rintro hinside rfl
    have hraw : rawPayload st.catalogs r = .ok c.spec.properties :=
      rawPayload_eq_ok_iff.2 (.inside hsource hinside hcontent)
    exact process_congr hr hr' hsame.objectName_eq hsame.scope_eq
      (plan_eq_of_payload hsame (hraw.trans hraw'.symm))
  · rintro hwhole hformed ⟨d, hd⟩ hproperties result after
    have hraw : rawPayload st.catalogs r = .ok [("spec", d.encode)] :=
      rawPayload_eq_ok_iff.2 (.whole hsource hwhole (by rwa [hcontent]))
    rw [hproperties] at hraw'
    obtain ⟨fs, rfl, -, -⟩ := Component.decode_eq_ok_iff.1 hd
    have hempty (overlay : Overlay) :
        Template.evaluate "" (base.specialise overlay) = .ok (.string "") := rfl
    have hfs : Fields.Distinct fs := hformed.1
    have hwritten := Component.distinct_written hfs hd
    have hagain := Component.decode_encode (Component.apart_of_decode hd)
    constructor
    · refine process_eq_ok_of_plan hr hr' hsame.objectName_eq hsame.scope_eq fun spec => ?_
      exact plan_of_alike hsame hwhole hraw hraw' fun w hw =>
        Tracer.trace_alike (hempty r.overlay) hwritten hfs hagain hd hw
    · refine process_eq_ok_of_plan hr' hr hsame.symm.objectName_eq hsame.symm.scope_eq fun spec => ?_
      exact plan_of_alike hsame.symm (hsame.component_eq ▸ hwhole) hraw' hraw fun w hw =>
        Tracer.trace_alike (hempty r'.overlay) hfs hwritten hd hagain hw

/-- A component of which the fields are out of order and the empty kind is spelled out. -/
def outOfOrder : Value :=
  .mapping [("image", .string "v${value}"), ("type", .string ""), ("name", .string "web")]

/-- Inputs that ask for a component of `shop`, or for the whole of one, to be patched. -/
def patchShop (component source : String) (content : Value) : Mapping :=
  [("objectType", .string "solution"), ("objectName", .string "shop"),
    ("component", .string component), ("property", .string "ports"), ("context", .string "2"),
    ("patchSource", .string source), ("patchContent", content)]

theorem sources_patchShop (component name : String) (content : Value) :
    Sources (patchShop component "inline" content) (patchShop component "catalog" (.string name))
      content name := by
  refine ⟨rfl, rfl, rfl, rfl, fun key hsource hcontent => ?_⟩
  simp [patchShop, Fields.get?_cons, Ne.symm hsource, Ne.symm hcontent]

/-- The component replaces the one of its name, or what holds it is added to the ports of that one. -/
theorem sources_agree_outOfOrder :
    let c : Catalog := { id := "base", spec := { properties := [("spec", outOfOrder)] } }
    let web : SolutionSpec :=
      { components := [{ name := "web", properties := [("ports", .sequence [])] }] }
    let st : Stores MemoryCatalogs MemorySolutions :=
      ⟨(({} : MemoryCatalogs).upsert "base" c).2,
        (({} : MemorySolutions).upsert "shop" "default" web).2⟩
    let run (component source : String) (content : Value) :=
      process ⟨Template.evaluate, {}⟩ st (patchShop component source content)
    run "web" "inline" (.mapping c.spec.properties) = run "web" "catalog" (.string "base") ∧
    ∃ after, run "" "inline" outOfOrder = (.ok {}, after) ∧
      run "" "catalog" (.string "base") = (.ok {}, after) ∧
      (after.solutions.get "shop" "default").map Solution.spec =
        .ok { components := [{ name := "web", extra := [("image", .string "v2")] }] } := by
  intro c web st run
  have hc : CatalogStore.get st.catalogs "base" =
      .ok { c with spec := { c.spec with generation := generationTag 1 } } := rfl
  constructor
  · exact (sources_agree {} (sources_patchShop "web" "base" (.mapping c.spec.properties)) hc).1
      (by decide) rfl
  · obtain ⟨after, hrun⟩ : ∃ after, run "" "inline" outOfOrder = (.ok {}, after) := ⟨_, rfl⟩
    have hafter : (after.solutions.get "shop" "default").map Solution.spec =
        .ok { components := [{ name := "web", extra := [("image", .string "v2")] }] } := by
      cases hrun
      rfl
    have hformed : outOfOrder.WellFormed := by
      refine ⟨by decide, ?_⟩
      simp [Value.WellFormedFields, Value.WellFormed]
    have hagree := (sources_agree {} (sources_patchShop "" "base" outOfOrder) hc).2 rfl hformed
      ⟨_, rfl⟩ rfl
    exact ⟨after, hrun, (hagree {} after).1 hrun, hafter⟩

end FleetCatalog.Patch
