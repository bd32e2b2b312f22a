import FleetCatalog.Store.Basic
/-!
# Stores in memory

Catalogs are kept in their envelopes, by id; solutions as they are, by scope and name. A write
raises the revision number by one; deleting a catalog forgets its number.
-/
namespace FleetCatalog

/-- Catalogs in memory. -/
structure MemoryCatalogs where
  entries : SortedMap (Stored Value) := ∅
  deriving DecidableEq, Inhabited

namespace MemoryCatalogs

/-- The catalog in a stored envelope. -/
def revision (e : Stored Value) : Except StoreError Catalog :=
  match CatalogDocument.decode e.body with
  | .ok d => .ok (d.toCatalog (generationTag e.generation))
  | .error cause => .error (.unreadable cause)

def get (s : MemoryCatalogs) (id : String) : Except StoreError Catalog :=
  match s.entries.get? id with
  | none => .error (.notFound .catalog id)
  | some e => revision e

/-- The tag of what is stored under an id, empty if nothing is. -/
def tag (s : MemoryCatalogs) (id : String) : String :=
  match s.entries.get? id with
  | none => ""
  | some e => generationTag e.generation

/-- The revision number that the next write under an id gets. -/
def nextGeneration (s : MemoryCatalogs) (id : String) : Nat :=
  match s.entries.get? id with
  | none => 1
  | some e => e.generation + 1

def upsert (s : MemoryCatalogs) (id : String) (c : Catalog) :
    Except StoreError String × MemoryCatalogs :=
  if c.spec.generation ≠ "" ∧ c.spec.generation ≠ s.tag id then
    (.error (.conflict .catalog id c.spec.generation (s.tag id)), s)
  else
    let n := s.nextGeneration id
    let body := (CatalogDocument.ofCatalog { c with id }).encode
    (.ok (generationTag n), ⟨s.entries.insert id ⟨body, n⟩⟩)

def delete (s : MemoryCatalogs) (id : String) : Except StoreError Unit × MemoryCatalogs :=
  match s.entries.get? id with
  | none => (.error (.notFound .catalog id), s)
  | some _ => (.ok (), ⟨s.entries.erase id⟩)

def list (s : MemoryCatalogs) : Except StoreError (List Catalog) :=
  s.entries.toList.mapM fun e => revision e.2

instance : CatalogStore MemoryCatalogs where
  get := get
  upsert := upsert
  delete := delete
  list := list
  size s := s.entries.size

end MemoryCatalogs

/-- Solutions in memory, by scope and name. -/
structure MemorySolutions where
  entries : List ((String × String) × Stored SolutionSpec) := []
  deriving DecidableEq, Inhabited

namespace MemorySolutions

def get (s : MemorySolutions) (name scope : String) : Except StoreError Solution :=
  match Fields.get? (scope, name) s.entries with
  | none => .error (.notFound .solution (solutionId name scope))
  | some e => .ok { name, scope, spec := e.body, tag := generationTag e.generation }

def upsert (s : MemorySolutions) (name scope : String) (spec : SolutionSpec) :
    Except StoreError Unit × MemorySolutions :=
  let n := match Fields.get? (scope, name) s.entries with
    | none => 1
    | some e => e.generation + 1
  (.ok (), ⟨Fields.put (scope, name) ⟨spec, n⟩ s.entries⟩)

instance : SolutionStore MemorySolutions := ⟨get, upsert⟩

end MemorySolutions
end FleetCatalog
