import FleetCatalog.Catalog.Registry
import FleetCatalog.Configuration.Editing
import FleetCatalog.Proofs.Outcome
import FleetCatalog.Proofs.Store.Memory

/-! The calls that change a store of catalogs in memory, and all that one of them can do. -/
namespace FleetCatalog
open MemoryCatalogs

section Registry
variable {s : MemoryCatalogs} {name : String} {spec : CatalogSpec}

/-- What is admitted is found without fault, and so are its parents. -/
theorem Registry.of_accept (h : accept s name spec = .ok ()) :
    validate s spec = .ok ∅ ∧ checkParents s name spec = .ok () := by
  obtain ⟨found, hvalidate, h⟩ := Except.bind_eq_ok.1 h
  cases hfound : found.isEmpty with
  | true =>
    rw [hfound] at h
    rw [(SortedMap.isEmpty_iff found).1 hfound] at hvalidate
    exact ⟨hvalidate, h⟩
  | false =>
    rw [hfound] at h
    cases h

/-- The check is passed only if the walk up from the parent comes to an end. -/
theorem Registry.walk_of_checkParents {first : String} (h : checkParents s name spec = .ok ())
    (hparent : spec.parent = some first) :
    ∃ r, (Ancestry.walk s (fun _ => (none : Option Empty)) name first).outcome = .ok r := by
  unfold checkParents at h
  rw [hparent] at h
  cases hwalk : (Ancestry.walk s (fun _ => (none : Option Empty)) name first).outcome with
  | ok r => exact ⟨r, rfl⟩
  | error halt =>
    simp only [hwalk] at h
    cases halt with
    | repeated _ => cases h
    | failed _ cause => cases cause <;> cases h

theorem Registry.upsert_of_refused {e : Error} (m : Registry) (h : accept s name spec = .error e) :
    m.upsert s name spec = ⟨.error e, s, []⟩ := by
  unfold upsert
  rw [h]

theorem Registry.upsert_of_not_current (m : Registry) (h : accept s name spec = .ok ())
    (htag : ¬ s.Current name spec.generation) :
    m.upsert s name spec =
      ⟨.error (.store (.conflict .catalog name spec.generation (s.tag name))), s, []⟩ := by
  have hs : CatalogStore.upsert s name ⟨name, spec⟩ = _ := MemoryCatalogs.upsert_of_not_current htag
  unfold upsert
  rw [h, hs]

theorem Registry.upsert_of_current (m : Registry) (h : accept s name spec = .ok ())
    (htag : s.Current name spec.generation) :
    m.upsert s name spec = ⟨.ok (generationTag (s.nextGeneration name)),
      s.written name ⟨name, spec⟩, if m.publishes then [⟨name, spec⟩] else []⟩ := by
  have hs : CatalogStore.upsert s name ⟨name, spec⟩ = _ := MemoryCatalogs.upsert_of_current htag
  unfold upsert
  rw [h, hs]

theorem Registry.of_upsert_ok (m : Registry) {tag : String}
    (h : (m.upsert s name spec).answer = .ok tag) :
    accept s name spec = .ok () ∧ tag = generationTag (s.nextGeneration name) ∧
      (m.upsert s name spec).store = s.written name ⟨name, spec⟩ := by
  cases haccept : accept s name spec with
  | error e =>
    rw [m.upsert_of_refused haccept] at h
    cases h
  | ok _ =>
    by_cases htag : s.Current name spec.generation
    · rw [m.upsert_of_current haccept htag] at h ⊢
      cases h
      exact ⟨rfl, rfl, rfl⟩
    · rw [m.upsert_of_not_current haccept htag] at h
      cases h

/-- What an upsert leaves: the store as it was, or with a specification that has been admitted. -/
theorem Registry.store_upsert (m : Registry) (s : MemoryCatalogs) (name : String)
    (spec : CatalogSpec) :
    (m.upsert s name spec).store = s ∨
      accept s name spec = .ok () ∧ s.Current name spec.generation ∧
        (m.upsert s name spec).store = s.written name ⟨name, spec⟩ := by
  cases haccept : accept s name spec with
  | error e => exact .inl (by rw [m.upsert_of_refused haccept])
  | ok _ =>
    by_cases htag : s.Current name spec.generation
    · exact .inr ⟨rfl, htag, by rw [m.upsert_of_current haccept htag]⟩
    · exact .inl (by rw [m.upsert_of_not_current haccept htag])

end Registry

def Catalog.withProperties (c : Catalog) (properties : Mapping) : Catalog :=
  { c with spec := { c.spec with properties } }

namespace Configuration
variable {s : MemoryCatalogs} {object : String} {c : Catalog} {e : Edit}

theorem edit_of_get_error {cause : StoreError} (h : s.get object = .error cause) :
    edit s object e = (.error (.store cause), s) := by
  have hg : CatalogStore.get s object = _ := h
  unfold edit prepare
  rw [hg]
  rfl

/-- A copy is prepared from what is stored, if the edit can be applied to it. -/
theorem prepare_eq_ok {copy : Catalog} :
    prepare s object e = .ok copy ↔ ∃ c properties, s.get object = .ok c ∧
      e.apply object c.spec.properties = .ok properties ∧ copy = c.withProperties properties := by
  unfold prepare
  rw [Except.bind_eq_ok]
  constructor
  · rintro ⟨c, hget, h⟩
    obtain ⟨properties, happly, h⟩ := Except.bind_eq_ok.1 h
    cases h
    exact ⟨c, properties, Except.mapError_eq_ok.1 hget, happly, rfl⟩
  · rintro ⟨c, properties, hget, happly, rfl⟩
    exact ⟨c, Except.mapError_eq_ok.2 hget, Except.bind_eq_ok.2 ⟨properties, happly, rfl⟩⟩

/-- The only edit that can fail is the removal of a field, for want of the field. -/
theorem Edit.apply_eq_error {properties : Mapping} {err : Error}
    (h : e.apply object properties = .error err) : ∃ field, err = .fieldNotFound field object := by
  cases e with
  | set field value => cases h
  | setAll properties => cases h
  | remove field =>
    simp only [Edit.apply] at h
    split at h
    · cases h
    · cases h
      exact ⟨field, rfl⟩

theorem edit_of_apply_error {err : Error} (h : s.get object = .ok c)
    (he : e.apply object c.spec.properties = .error err) :
    edit s object e = (.error err, s) := by
  have hp : prepare s object e = .error err := by
    have hg : CatalogStore.get s object = _ := h
    unfold prepare
    rw [hg]
    show (e.apply object c.spec.properties >>= _) = _
    rw [he]
    rfl
  unfold edit
  rw [hp]

theorem commit_of_current (h : s.Current object c.spec.generation) :
    commit s object c = (.ok (), s.written object c) := by
  have hu : CatalogStore.upsert s object c = _ := MemoryCatalogs.upsert_of_current h
  unfold commit
  rw [hu]
  rfl

theorem commit_of_not_current (h : ¬ s.Current object c.spec.generation) :
    commit s object c =
      (.error (.store (.conflict .catalog object c.spec.generation (s.tag object))), s) := by
  have hu : CatalogStore.upsert s object c = _ := MemoryCatalogs.upsert_of_not_current h
  unfold commit
  rw [hu]
  rfl

/-- An edit that can be applied is written: the copy is at the tag at which it was fetched. -/
theorem edit_of_apply_ok {properties : Mapping} (h : s.get object = .ok c)
    (he : e.apply object c.spec.properties = .ok properties) :
    edit s object e = (.ok (), s.written object (c.withProperties properties)) := by
  have hp : prepare s object e = .ok (c.withProperties properties) :=
    prepare_eq_ok.2 ⟨c, properties, h, he, rfl⟩
  have htag : s.Current object (c.withProperties properties).spec.generation :=
    .inr (tag_of_get h).symm
  unfold edit
  rw [hp]
  exact commit_of_current htag

/-- What an edit leaves: the store as it was, or with other properties of what was stored. -/
theorem store_edit (s : MemoryCatalogs) (object : String) (e : Edit) :
    (edit s object e).2 = s ∨ ∃ c properties, s.get object = .ok c ∧
      (edit s object e).2 = s.written object (c.withProperties properties) := by
  cases hget : s.get object with
  | error cause => exact .inl (by rw [edit_of_get_error hget])
  | ok c =>
    cases happly : e.apply object c.spec.properties with
    | error err => exact .inl (by rw [edit_of_apply_error hget happly])
    | ok properties => exact .inr ⟨c, properties, rfl, by rw [edit_of_apply_ok hget happly]⟩

theorem removeObject_of_absent (h : s.entries.get? object = none) :
    removeObject s object = (.error (.store (.notFound .catalog object)), s) := by
  have hd : CatalogStore.delete s object = _ := delete_of_absent h
  unfold removeObject
  rw [hd]
  rfl

theorem removeObject_of_stored {entry : Stored Value} (h : s.entries.get? object = some entry) :
    removeObject s object = (.ok (), s.erased object) := by
  have hd : CatalogStore.delete s object = _ := delete_of_stored h
  unfold removeObject
  rw [hd]
  rfl

end Configuration

/-- A call that changes catalogs, made to a manager or to a provider. -/
inductive CatalogCall
  | upsert (m : Registry) (name : String) (spec : CatalogSpec)
  | delete (name : String)
  | edit (object : String) (e : Configuration.Edit)
  | removeObject (object : String)

/-- The store after a call, whether or not the call succeeds. -/
def CatalogCall.run (s : MemoryCatalogs) : CatalogCall → MemoryCatalogs
  | upsert m name spec => (m.upsert s name spec).store
  | delete name => (Registry.delete s name).store
  | edit object e => (Configuration.edit s object e).2
  | removeObject object => (Configuration.removeObject s object).2

/-- The store after calls one after another. -/
def CatalogCall.runAll (s : MemoryCatalogs) (calls : List CatalogCall) : MemoryCatalogs :=
  calls.foldl CatalogCall.run s

/-- What one call can do to a store. -/
inductive Change (s : MemoryCatalogs) : MemoryCatalogs → Prop
  | unchanged : Change s s
  | admitted {name spec} (haccept : Registry.accept s name spec = .ok ())
    (htag : s.Current name spec.generation) : Change s (s.written name ⟨name, spec⟩)
  | edited {object c} (properties : Mapping) (hget : s.get object = .ok c) :
    Change s (s.written object (c.withProperties properties))
  | deleted (id : String) : Change s (s.erased id)

theorem change_delete (s : MemoryCatalogs) (id : String) : Change s (s.delete id).2 := by
  cases h : s.entries.get? id with
  | none => rw [delete_of_absent h]; exact .unchanged
  | some e => rw [delete_of_stored h]; exact .deleted id

theorem CatalogCall.change (s : MemoryCatalogs) (call : CatalogCall) : Change s (call.run s) := by
  cases call with
  | upsert m name spec =>
    show Change s (m.upsert s name spec).store
    rcases m.store_upsert s name spec with hsame | ⟨haccept, htag, hstore⟩
    · rw [hsame]
      exact .unchanged
    · rw [hstore]
      exact .admitted haccept htag
  | delete name => exact change_delete s name
  | edit object e =>
    show Change s (Configuration.edit s object e).2
    rcases Configuration.store_edit s object e with hsame | ⟨c, properties, hget, hedit⟩
    · rw [hsame]
      exact .unchanged
    · rw [hedit]
      exact .edited properties hget
  | removeObject object => exact change_delete s object

end FleetCatalog
