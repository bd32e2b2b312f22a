import FleetCatalog.Store.Basic
/-!
# Stores that fail

A store some of whose calls fail before they touch it, as a storage backend that is out of
reach would make them fail.
-/
namespace FleetCatalog

/-- A call that can fail, with the id it is made for. -/
inductive StoreCall
  | getCatalog (id : String)
  | upsertCatalog (id : String)
  | deleteCatalog (id : String)
  | listCatalogs
  | getSolution (id : String)
  | upsertSolution (id : String)
  deriving DecidableEq, Inhabited

/-- A store with the reasons for which calls to it fail. -/
structure Unreliable (σ : Type) where
  store : σ
  outages : List (StoreCall × String) := []

namespace Unreliable
variable {σ : Type}

/-- From now on the call fails for the reason. -/
def interrupt (u : Unreliable σ) (call : StoreCall) (reason : String) : Unreliable σ :=
  { u with outages := Fields.put call reason u.outages }

/-- From now on the call reaches the store. -/
def restore (u : Unreliable σ) (call : StoreCall) : Unreliable σ :=
  { u with outages := Fields.erase call u.outages }

/-- An answer of the store, unless the call fails. -/
def reading {α : Type} (u : Unreliable σ) (call : StoreCall) (answer : Except StoreError α) :
    Except StoreError α :=
  match Fields.get? call u.outages with
  | some reason => .error (.backend reason)
  | none => answer

/-- A write to the store, unless the call fails. -/
def writing {α : Type} (u : Unreliable σ) (call : StoreCall) (run : σ → Except StoreError α × σ) :
    Except StoreError α × Unreliable σ :=
  match Fields.get? call u.outages with
  | some reason => (.error (.backend reason), u)
  | none =>
    let (answer, store) := run u.store
    (answer, { u with store })

instance [CatalogStore σ] : CatalogStore (Unreliable σ) where
  get u id := u.reading (.getCatalog id) (CatalogStore.get u.store id)
  upsert u id c := u.writing (.upsertCatalog id) fun s => CatalogStore.upsert s id c
  delete u id := u.writing (.deleteCatalog id) fun s => CatalogStore.delete s id
  list u := u.reading .listCatalogs (CatalogStore.list u.store)
  size u := CatalogStore.size u.store

instance [SolutionStore σ] : SolutionStore (Unreliable σ) where
  get u name scope :=
    u.reading (.getSolution (solutionId name scope)) (SolutionStore.get u.store name scope)
  upsert u name scope spec :=
    u.writing (.upsertSolution (solutionId name scope)) fun s =>
      SolutionStore.upsert s name scope spec

end Unreliable
end FleetCatalog
