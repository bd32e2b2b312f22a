import FleetCatalog.Configuration.Reading

/-! The four ways in which reading a field can go, with the catalogs that are fetched. -/
namespace FleetCatalog
namespace Configuration
variable {σ : Type} [CatalogStore σ] {s : σ} {object field : String} {c : Catalog}

theorem readJournal_of_get_error {cause : StoreError} (t : Tracer) (overlay : Overlay)
    (h : CatalogStore.get s object = .error cause) :
    readJournal t s overlay object field = ⟨[object], .error (.store cause)⟩ := by
  unfold readJournal
  rw [h]
  rfl

theorem readJournal_of_held {v : Value} (t : Tracer) (overlay : Overlay)
    (h : CatalogStore.get s object = .ok c) (hv : Fields.get? field c.spec.properties = some v) :
    readJournal t s overlay object field = ⟨[object], t.trace overlay v⟩ := by
  unfold readJournal
  rw [h, Journal.bind_of_ok (a := c) rfl]
  simp only [hv]
  rfl

theorem readJournal_of_top (t : Tracer) (overlay : Overlay)
    (h : CatalogStore.get s object = .ok c) (hv : Fields.get? field c.spec.properties = none)
    (hp : c.spec.parent = none) :
    readJournal t s overlay object field = ⟨[object], .error (.fieldNotFound field object)⟩ := by
  unfold readJournal
  rw [h, Journal.bind_of_ok (a := c) rfl]
  simp only [hv, hp]
  rfl

theorem readJournal_of_parent {first : String} (t : Tracer) (overlay : Overlay)
    (h : CatalogStore.get s object = .ok c) (hv : Fields.get? field c.spec.properties = none)
    (hp : c.spec.parent = some first) :
    readJournal t s overlay object field = ⟨object :: (inherited s object field first).asked,
      (inherited s object field first).outcome⟩ := by
  unfold readJournal
  rw [h, Journal.bind_of_ok (a := c) rfl]
  simp only [hv, hp]
  rfl

theorem read_of_get_error {cause : StoreError} (t : Tracer) (overlay : Overlay)
    (h : CatalogStore.get s object = .error cause) :
    read t s overlay object field = .error (.store cause) := by
  rw [read, readJournal_of_get_error t overlay h]

theorem read_of_top (t : Tracer) (overlay : Overlay) (h : CatalogStore.get s object = .ok c)
    (hv : Fields.get? field c.spec.properties = none) (hp : c.spec.parent = none) :
    read t s overlay object field = .error (.fieldNotFound field object) := by
  rw [read, readJournal_of_top t overlay h hv hp]

/-- What the catalog does not hold is inherited, whatever the tracer and the overlay. -/
theorem read_of_parent {first : String} (t : Tracer) (overlay : Overlay)
    (h : CatalogStore.get s object = .ok c) (hv : Fields.get? field c.spec.properties = none)
    (hp : c.spec.parent = some first) :
    read t s overlay object field = (inherited s object field first).outcome := by
  rw [read, readJournal_of_parent t overlay h hv hp]

/-- What the end of a walk means to the reader of a field. -/
def inheritedOutcome (field origin : String) :
    Except Ancestry.Halt (Option Value) → Except Error Value
  | .ok (some v) => .ok v
  | .ok none => .error (.fieldNotFound field origin)
  | .error (.repeated id) => .error (.cycle (.chainRepeats id origin))
  | .error (.failed _ cause) => .error (.store cause)

theorem inherited_outcome (s : σ) (origin field first : String) :
    (inherited s origin field first).outcome = inheritedOutcome field origin
      (Ancestry.walk s (fun c => Fields.get? field c.spec.properties) origin first).outcome := by
  unfold inherited
  cases h : (Ancestry.walk s (fun c => Fields.get? field c.spec.properties) origin first).outcome with
  | ok found => cases found <;> simp only [h, inheritedOutcome]
  | error halt => cases halt <;> simp only [h, inheritedOutcome]

/-- A reader is told of a cycle only by a walk that met an id again. -/
theorem inheritedOutcome_kind_ne {origin : String} {r : Except Ancestry.Halt (Option Value)}
    {e : Error} (hr : ∀ id, r ≠ .error (.repeated id))
    (he : inheritedOutcome field origin r = .error e) : e.kind ≠ .cycleDetected := by
  cases r with
  | ok found =>
    cases found with
    | some v => cases he
    | none => cases he; rintro ⟨⟩
  | error halt =>
    cases halt with
    | repeated id => exact absurd rfl (hr id)
    | failed id cause => cases he; cases cause <;> rintro ⟨⟩

end Configuration
end FleetCatalog
