import FleetCatalog.Catalog.Ancestry

/-! Walks up a chain of parents without a bound on their steps. `Ascent` follows the chain as far as
it goes, and the executable walk does the same: it has a step for every catalog it can meet. -/
namespace FleetCatalog
namespace Ancestry
variable {σ α : Type} [CatalogStore σ]

/-- No more ids can be fetched than the store says. -/
def Sized (s : σ) : Prop :=
  ∀ ids : List String, ids.Nodup → (∀ id ∈ ids, ∃ c, CatalogStore.get s id = .ok c) →
    ids.length ≤ CatalogStore.size s

/-- The walk on from an id, having met the ids in a list: the ids fetched on the way and how it
ends. -/
inductive Ascent (s : σ) (look : Catalog → Option α) :
    List String → String → List String → Except Halt (Option α) → Prop
  | repeated {visited id} (hmet : id ∈ visited) :
    Ascent s look visited id [] (.error (.repeated id))
  | failed {visited id cause} (hnew : id ∉ visited) (hget : CatalogStore.get s id = .error cause) :
    Ascent s look visited id [id] (.error (.failed id cause))
  | found {visited id c a} (hnew : id ∉ visited) (hget : CatalogStore.get s id = .ok c)
    (hlook : look c = some a) : Ascent s look visited id [id] (.ok (some a))
  | top {visited id c} (hnew : id ∉ visited) (hget : CatalogStore.get s id = .ok c)
    (hlook : look c = none) (htop : c.spec.parent = none) :
    Ascent s look visited id [id] (.ok none)
  | parent {visited id c p asked r} (hnew : id ∉ visited) (hget : CatalogStore.get s id = .ok c)
    (hlook : look c = none) (hparent : c.spec.parent = some p)
    (rest : Ascent s look (id :: visited) p asked r) : Ascent s look visited id (id :: asked) r

variable {s : σ} {look : Catalog → Option α} {n : Nat} {visited : List String} {id : String}
  {c : Catalog}

theorem climb_of_met (h : id ∈ visited) : climb s look n visited id = .fail (.repeated id) := by
  cases n with
  | zero => rfl
  | succ n => exact if_pos h

theorem climb_of_error {cause : StoreError} (hnew : id ∉ visited)
    (h : CatalogStore.get s id = .error cause) :
    climb s look (n + 1) visited id = ⟨[id], .error (.failed id cause)⟩ := by
  unfold climb
  rw [if_neg hnew, h]
  rfl

/-- Once a catalog has been fetched the walk goes on as the catalog says. -/
theorem climb_of_ok (hnew : id ∉ visited) (h : CatalogStore.get s id = .ok c) :
    climb s look (n + 1) visited id =
      match look c with
      | some a => ⟨[id], .ok (some a)⟩
      | none =>
        match c.spec.parent with
        | none => ⟨[id], .ok none⟩
        | some p => ⟨id :: (climb s look n (id :: visited) p).asked,
            (climb s look n (id :: visited) p).outcome⟩ := by
  rw [climb, if_neg hnew, h]
  rw [Journal.bind_of_ok (a := c) rfl]
  cases look c with
  | some a => rfl
  | none => cases c.spec.parent <;> rfl

/-- With a step left for every catalog that has not been met the bound is never felt. -/
theorem climb_ascent (hs : Sized s) (n : Nat) (visited met : List String) (id : String)
    (hnodup : met.Nodup) (hsub : met ⊆ visited)
    (hstored : ∀ v ∈ met, ∃ c, CatalogStore.get s v = .ok c)
    (hsteps : CatalogStore.size s < n + met.length) :
    Ascent s look visited id (climb s look n visited id).asked
      (climb s look n visited id).outcome := by
  induction n generalizing visited met id with
  | zero =>
    have := hs met hnodup hstored
    omega
  | succ n ih =>
    by_cases hmet : id ∈ visited
    · rw [climb_of_met hmet]
      exact .repeated hmet
    · cases hget : CatalogStore.get s id with
      | error cause =>
        rw [climb_of_error hmet hget]
        exact .failed hmet hget
      | ok c =>
        rw [climb_of_ok hmet hget]
        cases hlook : look c with
        | some a => exact .found hmet hget hlook
        | none =>
          cases hparent : c.spec.parent with
          | none => exact .top hmet hget hlook hparent
          | some p =>
            refine .parent hmet hget hlook hparent (ih (id :: visited) (id :: met) p ?_ ?_ ?_ ?_)
            · exact List.nodup_cons.mpr ⟨fun h => hmet (hsub h), hnodup⟩
            · exact List.cons_subset_cons id hsub
            · rintro v (_ | ⟨_, hv⟩)
              · exact ⟨c, hget⟩
              · exact hstored v hv
            · rw [List.length_cons]
              omega

/-- The executable walk is the walk without a bound. -/
theorem walk_ascent (hs : Sized s) (look : Catalog → Option α) (origin first : String) :
    Ascent s look [origin] first (walk s look origin first).asked
      (walk s look origin first).outcome :=
  climb_ascent hs _ [origin] [] first List.nodup_nil (List.nil_subset _) (by simp) (by simp)

end Ancestry
end FleetCatalog
