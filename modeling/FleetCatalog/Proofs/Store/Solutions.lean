import FleetCatalog.Store.Memory

/-! Reading and writing solutions in memory. -/
namespace FleetCatalog
namespace MemorySolutions

/-- One solution differs between two stores. It has another specification, and the number of its
revision is one higher. -/
structure Revision (s s' : MemorySolutions) (name scope : String) (old new : SolutionSpec) :
    Prop where
  entry : ∃ g, Fields.get? (scope, name) s.entries = some ⟨old, g⟩ ∧
    Fields.get? (scope, name) s'.entries = some ⟨new, g + 1⟩
  others : ∀ key, key ≠ (scope, name) → Fields.get? key s'.entries = Fields.get? key s.entries

variable {s : MemorySolutions} {name scope : String} {x : Solution}

theorem entry_of_get (h : s.get name scope = .ok x) :
    ∃ g, Fields.get? (scope, name) s.entries = some ⟨x.spec, g⟩ := by
  unfold get at h
  cases he : Fields.get? (scope, name) s.entries with
  | none =>
    rw [he] at h
    cases h
  | some e =>
    rw [he] at h
    cases h
    exact ⟨e.generation, rfl⟩

/-- A write replaces what was read, and counts its revisions up. -/
theorem upsert_of_get (h : s.get name scope = .ok x) (spec : SolutionSpec) :
    ∃ s', s.upsert name scope spec = (.ok (), s') ∧ Revision s s' name scope x.spec spec := by
  obtain ⟨g, hg⟩ := entry_of_get h
  refine ⟨⟨Fields.put (scope, name) ⟨spec, g + 1⟩ s.entries⟩, ?_, ⟨g, hg, ?_⟩, ?_⟩
  · unfold upsert
    rw [hg]
  · exact Fields.get?_put_self _ _ _
  · intro key hkey
    exact Fields.get?_put_of_ne hkey _ _

section Revision
variable {s' : MemorySolutions} {old new : SolutionSpec}

theorem get_eq_ok_of_entry {g : Nat}
    (h : Fields.get? (scope, name) s.entries = some ⟨new, g⟩) :
    s.get name scope = .ok { name, scope, spec := new, tag := generationTag g } := by
  unfold get
  rw [h]

theorem Revision.get_new (h : s.Revision s' name scope old new) :
    ∃ tag, s'.get name scope = .ok { name, scope, spec := new, tag } := by
  obtain ⟨g, -, hnew⟩ := h.entry
  exact ⟨_, get_eq_ok_of_entry hnew⟩

theorem Revision.get_other (h : s.Revision s' name scope old new) {n sc : String}
    (hkey : (sc, n) ≠ (scope, name)) : s'.get n sc = s.get n sc := by
  unfold get
  rw [h.others (sc, n) hkey]

/-- A revision without a change keeps every specification. -/
theorem Revision.spec_eq (h : s.Revision s' name scope new new) (n sc : String) :
    (s'.get n sc).map Solution.spec = (s.get n sc).map Solution.spec := by
  by_cases hkey : (sc, n) = (scope, name)
  · cases hkey
    obtain ⟨g, hold, hnew⟩ := h.entry
    rw [get_eq_ok_of_entry hold, get_eq_ok_of_entry hnew]
    rfl
  · rw [h.get_other hkey]

end Revision
end MemorySolutions
end FleetCatalog
