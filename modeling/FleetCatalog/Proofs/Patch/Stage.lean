import FleetCatalog.Patch.Stage
import FleetCatalog.Proofs.Outcome

/-! All that a run of the patch stage does, with any stores: where its payload comes from, the answers
it gives and the one write it makes. -/
namespace FleetCatalog.Patch

variable {κ σ : Type} [CatalogStore κ] [SolutionStore σ]

/-- The payload of a request, traced. -/
def tracedPayload (t : Tracer) (catalogs : κ) (r : Request) : Except Error Mapping := do
  let payload ← rawPayload catalogs r
  t.traceMapping r.overlay payload

/-- What a request with a traced payload would write. -/
def planTraced (solutions : σ) (r : Request) (payload : Mapping) :
    Except Error (Option SolutionSpec) :=
  if r.objectType = solutionType then do
    let s ← (SolutionStore.get solutions r.objectName r.scope).mapError .store
    let p ← (patchComponents r payload s.spec.components).mapError .patch
    return if p.changed then some { s.spec with components := p.result } else none
  else return none

/-- What a request has for a payload before it is traced: the properties of the catalog that it
names, the mapping that it gives for a part of a component, or the component that it gives, as that
is read and written again. -/
inductive Untraced (catalogs : κ) (r : Request) : Mapping → Prop
  | catalog {name : String} {c : Catalog} (source : r.source = .catalog)
      (content : r.content = some (.string name))
      (stored : CatalogStore.get catalogs name = .ok c) : Untraced catalogs r c.spec.properties
  | inside {fs : Mapping} (source : r.source = .inline) (component : r.component ≠ "")
      (content : r.content = some (.mapping fs)) : Untraced catalogs r fs
  | whole {c : Component} (source : r.source = .inline) (component : r.component = "")
      (read : Component.decode (r.content.getD .null) = .ok c) :
      Untraced catalogs r [("spec", c.encode)]

variable {t : Tracer} {st : Stores κ σ} {inputs : Mapping} {r : Request}

section Payload
variable {catalogs : κ} {raw payload : Mapping}

theorem Untraced.rawPayload_eq (h : Untraced catalogs r raw) : rawPayload catalogs r = .ok raw := by
  unfold rawPayload
  cases h with
  | catalog source content stored =>
    rw [source, content]
    simp only [stored]
    rfl
  | inside source component content =>
    rw [source, content]
    exact if_neg component
  | whole source component read =>
    rw [source]
    simp only [if_pos component, read]

theorem rawPayload_eq_ok_iff : rawPayload catalogs r = .ok raw ↔ Untraced catalogs r raw := by
  refine ⟨fun h => ?_, Untraced.rawPayload_eq⟩
  unfold rawPayload at h
  cases hsource : r.source with
  | catalog =>
    rw [hsource] at h
    dsimp only at h
    split at h
    · next name hcontent =>
      obtain ⟨c, hc, rfl⟩ := Except.map_eq_ok.1 h
      exact .catalog hsource hcontent (Except.mapError_eq_ok.1 hc)
    · cases h
  | inline =>
    rw [hsource] at h
    dsimp only at h
    split at h
    · next hcomponent =>
      split at h
      · next c hread =>
        cases h
        exact .whole hsource hcomponent hread
      · cases h
    · next hcomponent =>
      split at h
      · next fs hcontent =>
        cases h
        exact .inside hsource hcomponent hcontent
      · cases h

/-- A traced payload is what the request has for one, traced with the overlay of the request. -/
theorem tracedPayload_eq_ok_iff : tracedPayload t catalogs r = .ok payload ↔
    ∃ raw, Untraced catalogs r raw ∧ t.traceMapping r.overlay raw = .ok payload := by
  unfold tracedPayload
  rw [Except.bind_eq_ok]
  simp only [rawPayload_eq_ok_iff]

end Payload

theorem plan_eq (t : Tracer) (st : Stores κ σ) (r : Request) :
    plan t st r = tracedPayload t st.catalogs r >>= planTraced st.solutions r := by
  unfold plan tracedPayload
  rw [bind_assoc]
  rfl

theorem planTraced_eq_ok {solutions : σ} {r : Request} {payload : Mapping}
    {spec : Option SolutionSpec} (h : planTraced solutions r payload = .ok spec) :
    (r.objectType ≠ solutionType ∧ spec = none) ∨
    ∃ s p, r.objectType = solutionType ∧
      SolutionStore.get solutions r.objectName r.scope = .ok s ∧
      patchComponents r payload s.spec.components = .ok p ∧
      spec = if p.changed then some { s.spec with components := p.result } else none := by
  unfold planTraced at h
  by_cases htype : r.objectType = solutionType
  · rw [if_pos htype, Except.bind_eq_ok] at h
    obtain ⟨s, hs, h⟩ := h
    obtain ⟨p, hp, h⟩ := Except.bind_eq_ok.1 h
    cases h
    exact .inr ⟨s, p, htype, Except.mapError_eq_ok.1 hs, Except.mapError_eq_ok.1 hp, rfl⟩
  · rw [if_neg htype] at h
    cases h
    exact .inl ⟨htype, rfl⟩

theorem planTraced_of_patch {solutions : σ} {payload : Mapping} {s : Solution}
    {p : Patched (List Component)} (htype : r.objectType = solutionType)
    (hs : SolutionStore.get solutions r.objectName r.scope = .ok s)
    (hp : patchComponents r payload s.spec.components = .ok p) : planTraced solutions r payload =
      .ok (if p.changed then some { s.spec with components := p.result } else none) := by
  have hpatch : planTraced solutions r payload =
      (patchComponents r payload s.spec.components).mapError Error.patch >>= fun p =>
        .ok (if p.changed then some { s.spec with components := p.result } else none) := by
    unfold planTraced
    rw [if_pos htype, hs]
    rfl
  rw [hpatch, hp]
  rfl

theorem plan_of_patch (st : Stores κ σ) {payload : Mapping} {s : Solution}
    {p : Patched (List Component)} (hpayload : tracedPayload t st.catalogs r = .ok payload)
    (htype : r.objectType = solutionType)
    (hs : SolutionStore.get st.solutions r.objectName r.scope = .ok s)
    (hp : patchComponents r payload s.spec.components = .ok p) :
    plan t st r = .ok (if p.changed then some { s.spec with components := p.result } else none) := by
  rw [plan_eq, hpayload]
  exact planTraced_of_patch htype hs hp

theorem process_of_refused {cause : PatchError} (h : Request.ofInputs inputs = .error cause) :
    process t st inputs = (.error (.patch cause), st) := by
  unfold process
  rw [h]

theorem process_of_plan_error {e : Error} (hr : Request.ofInputs inputs = .ok r)
    (hplan : plan t st r = .error e) : process t st inputs = (.error e, st) := by
  unfold process run
  rw [hr]
  simp only [hplan]
  rfl

theorem process_of_plan_none (hr : Request.ofInputs inputs = .ok r)
    (hplan : plan t st r = .ok none) : process t st inputs = (.ok {}, st) := by
  unfold process run
  rw [hr]
  simp only [hplan]
  rfl

theorem process_of_plan_some {spec : SolutionSpec} (hr : Request.ofInputs inputs = .ok r)
    (hplan : plan t st r = .ok (some spec)) : process t st inputs =
      (((SolutionStore.upsert st.solutions r.objectName r.scope spec).1.mapError .store).map
          fun _ => {},
        { st with
          solutions := (SolutionStore.upsert st.solutions r.objectName r.scope spec).2 }) := by
  unfold process run
  rw [hr]
  simp only [hplan]

/-- What one plan succeeds with, another for the same solution succeeds with. -/
theorem process_eq_ok_of_plan {inputs' : Mapping} {r' : Request} {result : StageResult}
    {after : Stores κ σ} (hr : Request.ofInputs inputs = .ok r)
    (hr' : Request.ofInputs inputs' = .ok r') (hname : r.objectName = r'.objectName)
    (hscope : r.scope = r'.scope) (hplan : ∀ spec, plan t st r = .ok spec → plan t st r' = .ok spec)
    (h : process t st inputs = (.ok result, after)) : process t st inputs' = (.ok result, after) := by
  rw [← h]
  cases hp : plan t st r with
  | error e =>
    rw [process_of_plan_error hr hp] at h
    cases h
  | ok spec =>
    have hp' := hplan spec hp
    cases spec with
    | none => rw [process_of_plan_none hr hp, process_of_plan_none hr' hp']
    | some spec =>
      rw [process_of_plan_some hr hp, process_of_plan_some hr' hp', hname, hscope]

/-- Requests for the same solution with the same plan give the same answer and leave the same. -/
theorem process_congr {inputs' : Mapping} {r' : Request} (hr : Request.ofInputs inputs = .ok r)
    (hr' : Request.ofInputs inputs' = .ok r') (hname : r.objectName = r'.objectName)
    (hscope : r.scope = r'.scope) (hplan : plan t st r = plan t st r') :
    process t st inputs = process t st inputs' := by
  unfold process run
  rw [hr, hr']
  simp only [hplan, hname, hscope]

/-- All that a run of the stage does. It fails and leaves the stores alone; or it is not about a
solution; or it patches the components of one, and writes it back if they have changed. -/
theorem process_cases (t : Tracer) (st : Stores κ σ) (inputs : Mapping) :
    (∃ e, process t st inputs = (.error e, st)) ∨
    ∃ r payload, Request.ofInputs inputs = .ok r ∧ tracedPayload t st.catalogs r = .ok payload ∧
      ((r.objectType ≠ solutionType ∧ process t st inputs = (.ok {}, st)) ∨
      ∃ s p, r.objectType = solutionType ∧
        SolutionStore.get st.solutions r.objectName r.scope = .ok s ∧
        patchComponents r payload s.spec.components = .ok p ∧
        ((p.changed = false ∧ process t st inputs = (.ok {}, st)) ∨
        (p.changed = true ∧ process t st inputs =
          (((SolutionStore.upsert st.solutions r.objectName r.scope
              { s.spec with components := p.result }).1.mapError .store).map fun _ => {},
            { st with solutions := (SolutionStore.upsert st.solutions r.objectName r.scope
              { s.spec with components := p.result }).2 })))) := by
  cases hr : Request.ofInputs inputs with
  | error cause => exact .inl ⟨.patch cause, process_of_refused hr⟩
  | ok r =>
    cases hplan : plan t st r with
    | error e => exact .inl ⟨e, process_of_plan_error hr hplan⟩
    | ok spec =>
      right
      have hsplit := hplan
      rw [plan_eq, Except.bind_eq_ok] at hsplit
      obtain ⟨payload, hpayload, htraced⟩ := hsplit
      refine ⟨r, payload, rfl, hpayload, ?_⟩
      rcases planTraced_eq_ok htraced with ⟨htype, rfl⟩ | ⟨s, p, htype, hs, hp, rfl⟩
      · exact .inl ⟨htype, process_of_plan_none hr hplan⟩
      · refine .inr ⟨s, p, htype, hs, hp, ?_⟩
        cases hc : p.changed with
        | false =>
          rw [hc] at hplan
          exact .inl ⟨rfl, process_of_plan_none hr hplan⟩
        | true =>
          rw [hc] at hplan
          exact .inr ⟨rfl, process_of_plan_some hr hplan⟩

end FleetCatalog.Patch
