import FleetCatalog.Journal
import FleetCatalog.Store.Basic
/-!
# Ancestry

Walking from a catalog up its chain of parents. A walk stops at the first catalog it looks for,
at one without a parent, at an id it has met before, or where the store has no answer. Whether
an id has been met is decided before it is fetched, so each is fetched at most once.
-/
namespace FleetCatalog.Ancestry

/-- Why a walk does not come to an end of its own. -/
inductive Halt
  /-- The id has been met before. -/
  | repeated (id : String)
  /-- The id cannot be fetched. -/
  | failed (id : String) (cause : StoreError)
  deriving DecidableEq, Inhabited

variable {σ α : Type} [CatalogStore σ]

/-- Walks on from `id`, having met the ids in `visited`, for at most the given number of fetches.
The ids fetched are recorded; the outcome is what was looked for, or none at the top. -/
def climb (s : σ) (look : Catalog → Option α) :
    Nat → List String → String → Journal String Halt (Option α)
  | 0, _, id => .fail (.repeated id)
  | n + 1, visited, id =>
    if id ∈ visited then .fail (.repeated id)
    else do
      let c ← .ask id ((CatalogStore.get s id).mapError (.failed id))
      match look c with
      | some a => return some a
      | none =>
        match c.spec.parent with
        | none => return none
        | some p => climb s look n (id :: visited) p

/-- The walk from the parent `first` of `origin`. All ids met are distinct and all but the last
fetched ones are stored, so that one more step than there are catalogs is enough. -/
def walk (s : σ) (look : Catalog → Option α) (origin first : String) :
    Journal String Halt (Option α) :=
  climb s look (CatalogStore.size s + 1) [origin] first

end FleetCatalog.Ancestry
