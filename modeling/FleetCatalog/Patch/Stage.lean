import FleetCatalog.Configuration.Reading
import FleetCatalog.Patch.Request
/-!
# The patch stage

A request is resolved to a payload, the payload is traced, and a stored solution is patched with
it. All look-ups and checks come before the only write, and nothing is written that has not
changed.
-/
namespace FleetCatalog.Patch

/-- The stores that a stage works on. -/
structure Stores (κ σ : Type) where
  catalogs : κ
  solutions : σ

/-- What a stage hands on: always nothing, and it never asks to be run again. -/
structure StageResult where
  outputs : Mapping := []
  pending : Bool := false
  deriving DecidableEq, Inhabited

/-- The type of objects that can be patched. -/
def solutionType : String := "solution"

variable {κ σ : Type} [CatalogStore κ] [SolutionStore σ]

/-- The payload before it is traced. A component that is given inline is read as one first. -/
def rawPayload (catalogs : κ) (r : Request) : Except Error Mapping :=
  match r.source with
  | .catalog =>
    match r.content with
    | some (.string name) =>
      ((CatalogStore.get catalogs name).mapError .store).map fun c => c.spec.properties
    | _ => .error (.patch .contentNotName)
  | .inline =>
    if r.component = "" then
      match Component.decode (r.content.getD .null) with
      | .ok c => .ok [("spec", c.encode)]
      | .error cause => .error (.patch (.contentNotComponent cause))
    else
      match r.content with
      | some (.mapping fs) => .ok fs
      | other => .error (.patch (.contentNotMapping (other.map Value.shape)))

/-- The component in a payload for a whole component. -/
def payloadComponent (payload : Mapping) : Except PatchError Component :=
  match Fields.get? "spec" payload with
  | none => .error .payloadWithoutSpec
  | some v => (Component.decode v).mapError .payloadNotComponent

/-- The components of a solution after a request with a traced payload. -/
def patchComponents (r : Request) (payload : Mapping) (cs : List Component) :
    Except PatchError (Patched (List Component)) :=
  if r.component = "" then (payloadComponent payload).map fun c => components cs c r.action
  else (r.target payload).patchNamed r.component cs

/-- What a request would write: a new specification for the solution it addresses, or nothing. -/
def plan (t : Tracer) (st : Stores κ σ) (r : Request) : Except Error (Option SolutionSpec) := do
  let payload ← rawPayload st.catalogs r
  let payload ← t.traceMapping r.overlay payload
  if r.objectType = solutionType then
    let solution ← (SolutionStore.get st.solutions r.objectName r.scope).mapError .store
    let p ← (patchComponents r payload solution.spec.components).mapError .patch
    return if p.changed then some { solution.spec with components := p.result } else none
  else return none

/-- Runs a request. -/
def run (t : Tracer) (st : Stores κ σ) (r : Request) : Except Error Unit × Stores κ σ :=
  match plan t st r with
  | .error e => (.error e, st)
  | .ok none => (.ok (), st)
  | .ok (some spec) =>
    let (answer, solutions) := SolutionStore.upsert st.solutions r.objectName r.scope spec
    (answer.mapError .store, { st with solutions })

/-- Runs the stage on its inputs. -/
def process (t : Tracer) (st : Stores κ σ) (inputs : Mapping) :
    Except Error StageResult × Stores κ σ :=
  match Request.ofInputs inputs with
  | .error cause => (.error (.patch cause), st)
  | .ok r =>
    let (answer, st) := run t st r
    (answer.map fun _ => {}, st)

end FleetCatalog.Patch
