import FleetCatalog.Store.Memory
import FleetCatalog.Proofs.Catalog.Envelope
import FleetCatalog.Proofs.Decimal.Natural

/-! What a store of catalogs in memory answers after a write. A write either changes nothing or
leaves one of two stores, `written` and `erased`, that differ from the old one at one id. -/
namespace FleetCatalog

theorem generationTag_injective {m n : Nat} (h : generationTag m = generationTag n) : m = n :=
  Double.naturalText_injective (String.ofList_injective h)

theorem generationTag_ne_empty (n : Nat) : generationTag n ≠ "" := by
  intro h
  have hl := congrArg String.toList h
  rw [generationTag, String.toList_ofList] at hl
  exact Double.naturalText_ne_nil n hl

namespace MemoryCatalogs

/-- The revision number of what is stored under an id; zero if nothing is. -/
def revisionNumber (s : MemoryCatalogs) (id : String) : Nat :=
  ((s.entries.get? id).map Stored.generation).getD 0

/-- The store after a catalog has been accepted under an id. -/
def written (s : MemoryCatalogs) (id : String) (c : Catalog) : MemoryCatalogs :=
  ⟨s.entries.insert id ⟨(CatalogDocument.ofCatalog { c with id }).encode, s.nextGeneration id⟩⟩

/-- The store without what was stored under an id. -/
def erased (s : MemoryCatalogs) (id : String) : MemoryCatalogs := ⟨s.entries.erase id⟩

/-- A tag is current if it is empty or that of the stored revision. -/
def Current (s : MemoryCatalogs) (id tag : String) : Prop := tag = "" ∨ tag = s.tag id

variable {s : MemoryCatalogs} {id : String} {c : Catalog}

theorem nextGeneration_eq (s : MemoryCatalogs) (id : String) :
    s.nextGeneration id = s.revisionNumber id + 1 := by
  unfold nextGeneration revisionNumber
  cases s.entries.get? id <;> simp

theorem upsert_of_current (h : s.Current id c.spec.generation) :
    s.upsert id c = (.ok (generationTag (s.nextGeneration id)), s.written id c) := by
  have hn : ¬ (c.spec.generation ≠ "" ∧ c.spec.generation ≠ s.tag id) := by
    rintro ⟨h1, h2⟩
    exact h.elim h1 h2
  unfold upsert
  rw [if_neg hn]
  rfl

theorem upsert_of_not_current (h : ¬ s.Current id c.spec.generation) :
    s.upsert id c = (.error (.conflict .catalog id c.spec.generation (s.tag id)), s) := by
  unfold upsert
  exact if_pos (not_or.1 h)

theorem of_upsert_ok {tag : String} {t : MemoryCatalogs} (h : s.upsert id c = (.ok tag, t)) :
    tag = generationTag (s.nextGeneration id) ∧ t = s.written id c := by
  by_cases htag : s.Current id c.spec.generation
  · rw [upsert_of_current htag] at h
    cases h
    exact ⟨rfl, rfl⟩
  · rw [upsert_of_not_current htag] at h
    cases h

theorem of_upsert_error {cause : StoreError} {t : MemoryCatalogs}
    (h : s.upsert id c = (.error cause, t)) : t = s := by
  by_cases htag : s.Current id c.spec.generation
  · rw [upsert_of_current htag] at h
    cases h
  · rw [upsert_of_not_current htag] at h
    cases h
    rfl

theorem delete_of_stored {e : Stored Value} (h : s.entries.get? id = some e) :
    s.delete id = (.ok (), s.erased id) := by
  unfold delete
  rw [h]
  rfl

theorem delete_of_absent (h : s.entries.get? id = none) :
    s.delete id = (.error (.notFound .catalog id), s) := by
  unfold delete
  rw [h]

theorem of_delete_error {cause : StoreError} {t : MemoryCatalogs}
    (h : s.delete id = (.error cause, t)) : t = s := by
  cases he : s.entries.get? id with
  | none =>
    rw [delete_of_absent he] at h
    cases h
    rfl
  | some e =>
    rw [delete_of_stored he] at h
    cases h

/-- What is read is stored, and its generation is the tag of the stored revision. -/
theorem entry_of_get (h : s.get id = .ok c) :
    ∃ e, s.entries.get? id = some e ∧ c.spec.generation = generationTag e.generation := by
  unfold get at h
  cases he : s.entries.get? id with
  | none => simp [he] at h
  | some e =>
    refine ⟨e, rfl, ?_⟩
    simp only [he, revision] at h
    cases hd : CatalogDocument.decode e.body with
    | error cause => simp [hd] at h
    | ok d =>
      simp only [hd, Except.ok.injEq] at h
      subst h
      rfl

theorem tag_of_get (h : s.get id = .ok c) : s.tag id = c.spec.generation := by
  obtain ⟨e, he, hg⟩ := entry_of_get h
  unfold tag
  rw [he, hg]

/-- The catalog that was written is read back, under the id and with the new tag. -/
theorem get_written (s : MemoryCatalogs) (id j : String) (c : Catalog) :
    (s.written id c).get j = if j = id then
      .ok ⟨id, { c.spec with generation := generationTag (s.nextGeneration id) }⟩ else s.get j := by
  unfold get written
  rw [SortedMap.get?_insert]
  by_cases h : j = id
  · simp only [h, if_true, revision, CatalogDocument.decode_ofCatalog,
      CatalogDocument.toCatalog_ofCatalog]
  · simp only [h, if_false]

theorem get_erased (s : MemoryCatalogs) (id j : String) :
    (s.erased id).get j = if j = id then .error (.notFound .catalog id) else s.get j := by
  unfold get erased
  rw [SortedMap.get?_erase]
  by_cases h : j = id
  · simp only [h, if_true]
  · simp only [h, if_false]

theorem revisionNumber_written (s : MemoryCatalogs) (id j : String) (c : Catalog) :
    (s.written id c).revisionNumber j =
      if j = id then s.revisionNumber id + 1 else s.revisionNumber j := by
  rw [← nextGeneration_eq]
  unfold revisionNumber written
  rw [SortedMap.get?_insert]
  by_cases h : j = id <;> simp [h]

theorem revisionNumber_erased (s : MemoryCatalogs) (id j : String) :
    (s.erased id).revisionNumber j = if j = id then 0 else s.revisionNumber j := by
  unfold revisionNumber erased
  rw [SortedMap.get?_erase]
  by_cases h : j = id <;> simp [h]

/-- The revisions of every id are numbered from one. -/
def Numbered (s : MemoryCatalogs) : Prop :=
  ∀ id e, s.entries.get? id = some e → 0 < e.generation

theorem numbered_empty : Numbered {} := by
  intro id e h
  cases h

theorem Numbered.written (hs : s.Numbered) (id : String) (c : Catalog) :
    (s.written id c).Numbered := by
  intro j e h
  unfold MemoryCatalogs.written at h
  rw [SortedMap.get?_insert, nextGeneration_eq] at h
  split at h
  · cases h
    exact Nat.succ_pos _
  · exact hs j e h

theorem Numbered.erased (hs : s.Numbered) (id : String) : (s.erased id).Numbered := by
  intro j e h
  unfold MemoryCatalogs.erased at h
  rw [SortedMap.get?_erase] at h
  split at h
  · cases h
  · exact hs j e h

/-- The tag of a revision is current only while that revision is stored. -/
theorem current_iff {n : Nat} (hn : 0 < n) :
    s.Current id (generationTag n) ↔ s.revisionNumber id = n := by
  unfold Current tag revisionNumber
  cases he : s.entries.get? id with
  | none => simp [generationTag_ne_empty, Nat.ne_of_lt hn]
  | some e =>
    constructor
    · rintro (h | h)
      · exact absurd h (generationTag_ne_empty n)
      · exact (generationTag_injective h).symm
    · intro h
      exact .inr (congrArg generationTag h.symm)

/-- What is read has the tag of its revision, and that revision has a number. -/
theorem Numbered.generation_of_get (hs : s.Numbered) (h : s.get id = .ok c) :
    0 < s.revisionNumber id ∧ c.spec.generation = generationTag (s.revisionNumber id) := by
  obtain ⟨e, he, hg⟩ := entry_of_get h
  unfold revisionNumber
  rw [he]
  exact ⟨hs id e he, hg⟩

theorem length_le_size {ids : List String} (hnodup : ids.Nodup)
    (hstored : ∀ id ∈ ids, ∃ c, s.get id = .ok c) : ids.length ≤ CatalogStore.size s := by
  have hsub : ids ⊆ s.entries.keys := by
    intro id hid
    obtain ⟨c, hc⟩ := hstored id hid
    obtain ⟨e, he, -⟩ := entry_of_get hc
    rw [SortedMap.mem_keys_iff, he]
    rfl
  have hle := List.Nodup.length_le_of_subset hnodup hsub
  rwa [SortedMap.keys, List.length_map] at hle

end MemoryCatalogs
end FleetCatalog
