import FleetCatalog.Proofs.Patch.Component
import FleetCatalog.Proofs.Patch.Stage
import FleetCatalog.Proofs.Store.Solutions

/-! What a run of the patch stage leaves in memory. It changes no more than one solution, in no more
than its components, and it changes none if it fails or finds nothing to do. -/
namespace FleetCatalog.Patch

/-- What a request addresses is not there, or it is to be removed and nothing matches. -/
inductive Request.Idle (r : Request) (payload : Mapping) (cs : List Component) : Prop
  | noComponent (hc : r.component ≠ "") (hnone : ∀ c ∈ cs, c.name ≠ r.component)
  | noProperty {pre post : List Component} {c : Component} (hc : r.component ≠ "")
      (hfirst : First (named r.component) cs pre c post)
      (hnone : Fields.get? r.property c.properties = none)
  | noMatchingComponent {c : Component} (hc : r.component = "") (haction : r.action = .remove)
      (hpayload : payloadComponent payload = .ok c) (hnone : ∀ d ∈ cs, d.name ≠ c.name)
  | noMatchingEntry {pre post : List Component} {c : Component} {v : Value} {items : List Value}
      {around : List Value → Value} (hc : r.component ≠ "") (haction : r.action = .remove)
      (hfirst : First (named r.component) cs pre c post)
      (hproperty : Fields.get? r.property c.properties = some v)
      (hat : (r.target payload).At items v around)
      (hnone : ∀ entry ∈ items, r.dedupKey = "" ∨ addresses r.dedupKey payload entry = false)

/-- The components that a request leaves of others, if it changes them. -/
inductive Request.Effect (r : Request) (payload : Mapping) (cs : List Component) :
    List Component → Prop
  | replaced {pre post : List Component} {c d : Component} (hc : r.component = "")
      (haction : r.action = .add) (hpayload : payloadComponent payload = .ok c)
      (hfirst : First (named c.name) cs pre d post) : Effect r payload cs (pre ++ c :: post)
  | deleted {pre post : List Component} {c d : Component} (hc : r.component = "")
      (haction : r.action = .remove) (hpayload : payloadComponent payload = .ok c)
      (hfirst : First (named c.name) cs pre d post) : Effect r payload cs (pre ++ post)
  | appended {c : Component} (hc : r.component = "") (haction : r.action = .add)
      (hpayload : payloadComponent payload = .ok c) (hnone : ∀ d ∈ cs, d.name ≠ c.name) :
      Effect r payload cs (cs ++ [c])
  | inside {pre post : List Component} {c : Component} {v : Value} {items : List Value}
      {around : List Value → Value} (hc : r.component ≠ "")
      (hfirst : First (named r.component) cs pre c post)
      (hproperty : Fields.get? r.property c.properties = some v)
      (hat : (r.target payload).At items v around) :
      Effect r payload cs (pre ++
        { c with
          properties := Fields.put r.property
            (around (sequence items payload r.dedupKey r.action).result) c.properties } :: post)

variable {r : Request} {payload : Mapping} {cs : List Component} {p : Patched (List Component)}

theorem patchComponents_whole (h : r.component = "") : patchComponents r payload cs =
    (payloadComponent payload).map fun c => patchFirst (named c.name) c r.action cs :=
  if_pos h

theorem patchComponents_inside (h : r.component ≠ "") :
    patchComponents r payload cs = (r.target payload).patchNamed r.component cs :=
  if_neg h

/-- What is addressed is there and is patched, or there is nothing to do. -/
theorem Request.effect_or_idle (h : patchComponents r payload cs = .ok p) :
    (p.changed = true ∧ r.Effect payload cs p.result) ∨
      (p.changed = false ∧ r.Idle payload cs) := by
  by_cases hc : r.component = ""
  · rw [patchComponents_whole hc, Except.map_eq_ok] at h
    obtain ⟨c, hpayload, rfl⟩ := h
    rcases none_or_exists_first (named c.name) cs with hnone | ⟨pre, d, post, hfirst⟩
    · rw [patchFirst_of_none hnone]
      have hother := named_eq_false_iff.1 hnone
      cases haction : r.action with
      | add => exact .inl ⟨rfl, .appended hc haction hpayload hother⟩
      | remove => exact .inr ⟨rfl, .noMatchingComponent hc haction hpayload hother⟩
    · rw [patchFirst_of_first hfirst]
      cases haction : r.action with
      | add => exact .inl ⟨rfl, .replaced hc haction hpayload hfirst⟩
      | remove => exact .inl ⟨rfl, .deleted hc haction hpayload hfirst⟩
  · rw [patchComponents_inside hc] at h
    rcases none_or_exists_first (named r.component) cs with hnone | ⟨pre, c, post, hfirst⟩
    · rw [Target.patchNamed_of_none hnone] at h
      cases h
      exact .inr ⟨rfl, .noComponent hc (named_eq_false_iff.1 hnone)⟩
    · rw [Target.patchNamed_of_first hfirst, Except.map_eq_ok] at h
      obtain ⟨q, hq, rfl⟩ := h
      cases hproperty : Fields.get? r.property c.properties with
      | none =>
        rw [Target.patch_of_none hproperty] at hq
        cases hq
        exact .inr ⟨rfl, .noProperty hc hfirst hproperty⟩
      | some v =>
        rw [Target.patch_of_some hproperty, Except.map_eq_ok] at hq
        obtain ⟨q, hq, rfl⟩ := hq
        obtain ⟨items, around, hat⟩ := Target.exists_at_of_patchValue hq
        rw [Target.patchValue_of_at hat] at hq
        cases hq
        cases hchanged : ((r.target payload).sequence items).changed with
        | true => exact .inl ⟨hchanged, .inside hc hfirst hproperty hat⟩
        | false =>
          obtain ⟨haction, hnone⟩ := Target.changed_sequence_iff.1 hchanged
          exact .inr ⟨hchanged, .noMatchingEntry hc haction hfirst hproperty hat hnone⟩

theorem Request.Idle.changed (hidle : r.Idle payload cs)
    (h : patchComponents r payload cs = .ok p) : p.changed = false := by
  cases hidle with
  | noComponent hc hnone =>
    rw [patchComponents_inside hc, Target.patchNamed_of_none (named_eq_false_iff.2 hnone)] at h
    cases h
    rfl
  | noProperty hc hfirst hnone =>
    rw [patchComponents_inside hc, Target.patchNamed_of_first hfirst,
      Target.patch_of_none hnone] at h
    cases h
    rfl
  | noMatchingComponent hc haction hpayload hnone =>
    rw [patchComponents_whole hc, hpayload] at h
    cases h
    exact (changed_patchFirst_iff _ _ _ _).2 ⟨haction, named_eq_false_iff.2 hnone⟩
  | noMatchingEntry hc haction hfirst hproperty hat hnone =>
    rw [patchComponents_inside hc, Target.patchNamed_of_first hfirst,
      Target.patch_of_some hproperty, Target.patchValue_of_at hat] at h
    cases h
    exact Target.changed_sequence_iff.2 ⟨haction, hnone⟩

theorem Request.idle_iff (h : patchComponents r payload cs = .ok p) :
    r.Idle payload cs ↔ p.changed = false := by
  constructor
  · intro hidle
    exact hidle.changed h
  · intro hsame
    rcases effect_or_idle h with ⟨hchanged, -⟩ | ⟨-, hidle⟩
    · rw [hsame] at hchanged
      cases hchanged
    · exact hidle

theorem Request.effect_of_changed (h : patchComponents r payload cs = .ok p)
    (hchanged : p.changed = true) : r.Effect payload cs p.result := by
  rcases effect_or_idle h with ⟨-, heffect⟩ | ⟨hsame, -⟩
  · exact heffect
  · rw [hchanged] at hsame
    cases hsame

/-- What is planned for a stored solution is written. -/
theorem process_of_revision {κ : Type} [CatalogStore κ] {t : Tracer} {st : Stores κ MemorySolutions}
    {inputs : Mapping} {s : Solution} {spec : SolutionSpec} (hr : Request.ofInputs inputs = .ok r)
    (hs : st.solutions.get r.objectName r.scope = .ok s) (hplan : plan t st r = .ok (some spec)) :
    ∃ solutions, process t st inputs = (.ok {}, { st with solutions }) ∧
      st.solutions.Revision solutions r.objectName r.scope s.spec spec := by
  obtain ⟨solutions, hupsert, hrevision⟩ := MemorySolutions.upsert_of_get hs spec
  refine ⟨solutions, ?_, hrevision⟩
  rw [process_of_plan_some hr hplan,
    show SolutionStore.upsert st.solutions r.objectName r.scope _ = _ from hupsert]
  rfl

/-- A run of the stage leaves the catalogs alone. If it fails it leaves the solutions alone as well,
and so it does if it is not about a solution or finds nothing to do. Otherwise the solution that it
addresses is revised, in its components alone, and these as the request says. -/
theorem process_effect {κ : Type} [CatalogStore κ] (t : Tracer) (st : Stores κ MemorySolutions)
    (inputs : Mapping) :
    ∃ answer after, process t st inputs = (answer, after) ∧ after.catalogs = st.catalogs ∧
      (∀ e, answer = .error e → after.solutions = st.solutions) ∧
      ∀ result, answer = .ok result → ∃ r payload, Request.ofInputs inputs = .ok r ∧
        tracedPayload t st.catalogs r = .ok payload ∧
        (r.objectType ≠ "solution" → after.solutions = st.solutions) ∧
        (r.objectType = "solution" → ∃ s, st.solutions.get r.objectName r.scope = .ok s ∧
          (r.Idle payload s.spec.components → after.solutions = st.solutions) ∧
          (¬ r.Idle payload s.spec.components → ∃ cs, r.Effect payload s.spec.components cs ∧
            st.solutions.Revision after.solutions r.objectName r.scope s.spec
              { s.spec with components := cs })) := by
  rcases process_cases t st inputs with
    ⟨e, h⟩ | ⟨r, payload, hr, hpayload, ⟨htype, h⟩ | ⟨s, p, htype, hs, hp, hcases⟩⟩
  · refine ⟨_, _, h, rfl, fun _ _ => rfl, ?_⟩
    intro result hresult
    cases hresult
  · refine ⟨_, _, h, rfl, fun _ _ => rfl, ?_⟩
    intro result _
    exact ⟨r, payload, hr, hpayload, fun _ => rfl, fun hsolution => absurd hsolution htype⟩
  · rcases hcases with ⟨hsame, h⟩ | ⟨hchanged, h⟩
    · have hidle : r.Idle payload s.spec.components := (Request.idle_iff hp).2 hsame
      refine ⟨_, _, h, rfl, fun _ _ => rfl, ?_⟩
      intro result _
      exact ⟨r, payload, hr, hpayload, fun _ => rfl, fun _ =>
        ⟨s, hs, fun _ => rfl, fun hbusy => absurd hidle hbusy⟩⟩
    · have hbusy : ¬ r.Idle payload s.spec.components := by
        rw [Request.idle_iff hp, hchanged]
        exact Bool.noConfusion
      obtain ⟨solutions, hupsert, hrevision⟩ :=
        MemorySolutions.upsert_of_get hs { s.spec with components := p.result }
      have hwritten : process t st inputs = (.ok {}, { st with solutions }) := by
        rw [h, show SolutionStore.upsert st.solutions r.objectName r.scope _ = _ from hupsert]
        rfl
      refine ⟨_, _, hwritten, rfl, ?_, ?_⟩
      · intro e he
        cases he
      · intro result _
        exact ⟨r, payload, hr, hpayload, fun hother => absurd htype hother, fun _ =>
          ⟨s, hs, fun hidle => absurd hidle hbusy, fun _ =>
            ⟨p.result, Request.effect_of_changed hp hchanged, hrevision⟩⟩⟩

end FleetCatalog.Patch
