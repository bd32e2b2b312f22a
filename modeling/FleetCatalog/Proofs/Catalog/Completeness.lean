import FleetCatalog.Proofs.Catalog.Acyclicity

/-! Whether the parents that catalogs name are there. A catalog is admitted only with a parent that
is stored, and edits keep the parent; but a catalog is deleted without a look at those that name it.
A store is therefore complete for as long as no parent is deleted, and no longer. -/
namespace FleetCatalog
namespace Ancestry
open MemoryCatalogs

def Present (s : MemoryCatalogs) (id : String) : Prop := ∃ c, s.get id = .ok c

/-- Every parent that a stored catalog names is stored. -/
def Complete (s : MemoryCatalogs) : Prop := ∀ id parent, Inherits s id parent → Present s parent

variable {s : MemoryCatalogs} {id p : String} {c : Catalog}

theorem Present.written (h : Present s p) (id : String) (c : Catalog) :
    Present (s.written id c) p := by
  unfold Present
  rw [get_written]
  split
  · exact ⟨_, rfl⟩
  · exact h

theorem not_present_erased (s : MemoryCatalogs) (id : String) : ¬ Present (s.erased id) id := by
  rintro ⟨c, hget⟩
  rw [get_erased, if_pos rfl] at hget
  cases hget

theorem complete_empty : Complete {} := by
  rintro id parent ⟨c, hget, -⟩
  cases hget

theorem Complete.written (hs : Complete s) (h : ∀ p, c.spec.parent = some p → Present s p) :
    Complete (s.written id c) := by
  intro a b hab
  by_cases ha : a = id
  · subst ha
    exact (h b ((inherits_written_self s a c b).mp hab)).written a c
  · exact (hs a b ((inherits_written_of_ne ha c b).mp hab)).written id c

theorem Complete.erased (hs : Complete s) (h : ∀ child, ¬ Inherits s child id) :
    Complete (s.erased id) := by
  intro a b hab
  have hold := inherits_of_erased hab
  have hb : b ≠ id := fun hb => h a (hb ▸ hold)
  unfold Present
  rw [get_erased, if_neg hb]
  exact hs a b hold

theorem Complete.delete (hs : Complete s) (h : ∀ child, ¬ Inherits s child id) :
    Complete (s.delete id).2 := by
  cases he : s.entries.get? id with
  | none => rwa [delete_of_absent he]
  | some e =>
    rw [delete_of_stored he]
    exact hs.erased h

/-- Deleting the parent of a stored catalog leaves the catalog behind. -/
theorem not_complete_delete {child : String} (hs : Complete s) (hacyclic : Acyclic s)
    (h : Inherits s child id) : ¬ Complete (s.delete id).2 := by
  obtain ⟨parent, hparent⟩ := hs child id h
  obtain ⟨e, he, -⟩ := entry_of_get hparent
  rw [delete_of_stored he]
  intro hcomplete
  have hne : child ≠ id := by
    rintro rfl
    exact hacyclic child (.single h)
  refine not_present_erased s id (hcomplete child id ?_)
  unfold Inherits
  rw [get_erased, if_neg hne]
  exact h

theorem Ascent.present {look : Catalog → Option Empty} {visited asked : List String}
    {first : String} {r : Option Empty} (h : Ascent s look visited first asked (.ok r)) :
    Present s first := by
  cases h with
  | found _ hget _ => exact ⟨_, hget⟩
  | top _ hget _ _ => exact ⟨_, hget⟩
  | parent _ hget _ _ _ => exact ⟨_, hget⟩

theorem present_of_accept {name : String} {spec : CatalogSpec}
    (h : Registry.accept s name spec = .ok ()) (hp : spec.parent = some p) : Present s p := by
  obtain ⟨r, hr⟩ := Registry.walk_of_checkParents (Registry.of_accept h).2 hp
  have hwalk := walk_ascent (sized_memory s) (fun _ => (none : Option Empty)) name p
  rw [hr] at hwalk
  exact hwalk.present

end Ancestry
open Ancestry

/-- Whether a call is made to delete a catalog. -/
def CatalogCall.Deletes (name : String) : CatalogCall → Prop
  | delete j => j = name
  | removeObject j => j = name
  | _ => False

namespace CatalogCall
variable {s : MemoryCatalogs} {call : CatalogCall} {name : String}

theorem run_of_deletes (h : call.Deletes name) : call.run s = (s.delete name).2 := by
  cases call with
  | upsert m j spec => exact h.elim
  | delete j =>
    cases h
    rfl
  | edit object e => exact h.elim
  | removeObject j =>
    cases h
    rfl

/-- A call keeps a store complete unless it deletes a parent. -/
theorem complete_run (hs : Complete s)
    (h : ∀ name, call.Deletes name → ∀ child, ¬ Inherits s child name) : Complete (call.run s) := by
  cases call with
  | upsert m name spec =>
    show Complete (m.upsert s name spec).store
    rcases m.store_upsert s name spec with hsame | ⟨haccept, -, hstore⟩
    · rwa [hsame]
    · rw [hstore]
      exact hs.written fun p hp => present_of_accept haccept hp
  | delete name => exact hs.delete (h name rfl)
  | edit object e =>
    show Complete (Configuration.edit s object e).2
    rcases Configuration.store_edit s object e with hsame | ⟨c, properties, hget, hedit⟩
    · rwa [hsame]
    · rw [hedit]
      exact hs.written fun p hp => hs object p ⟨c, hget, hp⟩
  | removeObject object => exact hs.delete (h object rfl)

theorem runAll_append (s : MemoryCatalogs) (xs ys : List CatalogCall) :
    runAll s (xs ++ ys) = runAll (runAll s xs) ys := List.foldl_append

theorem complete_runAll (calls : List CatalogCall) (hs : Complete s)
    (h : ∀ before call after name, calls = before ++ call :: after → call.Deletes name →
      ∀ child, ¬ Inherits (runAll s before) child name) : Complete (runAll s calls) := by
  induction calls generalizing s with
  | nil => exact hs
  | cons call calls ih =>
    refine ih (complete_run hs fun name => h [] call calls name rfl) ?_
    rintro before call' after name rfl
    exact h (call :: before) call' after name rfl

end CatalogCall

/-- Every parent is present in all the states of a run just if no call of the run deletes a catalog
that a stored one names as its parent. -/
theorem parents_present_iff (calls : List CatalogCall) :
    (∀ before, before <+: calls → Complete (CatalogCall.runAll {} before)) ↔
      ∀ before call after name, calls = before ++ call :: after → call.Deletes name →
        ∀ child, ¬ Inherits (CatalogCall.runAll {} before) child name := by
  constructor
  · rintro h before call after name rfl hdeletes child hchild
    have hbefore := h before (List.prefix_append _ _)
    have hstep := h (before ++ [call]) ⟨after, by simp⟩
    rw [CatalogCall.runAll_append] at hstep
    have hrun : CatalogCall.runAll (CatalogCall.runAll {} before) [call] = _ :=
      CatalogCall.run_of_deletes hdeletes
    rw [hrun] at hstep
    exact not_complete_delete hbefore (acyclic_empty.runAll before) hchild hstep
  · rintro h before ⟨rest, rfl⟩
    refine CatalogCall.complete_runAll before complete_empty ?_
    rintro before call after name rfl
    exact h before call (after ++ rest) name (by simp)

/-- A catalog is deleted that another one names as its parent. -/
theorem parent_deleted_from_under_child :
    ¬ Complete (CatalogCall.runAll {} [.upsert {} "base" {},
      .upsert {} "derived" { parentName := some "base" }, .delete "base"]) := by
  intro h
  obtain ⟨c, hget⟩ := h "derived" "base" ⟨_, rfl, rfl⟩
  cases hget

end FleetCatalog
