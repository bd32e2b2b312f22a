import FleetCatalog.Patch.Component
/-!
# Patch requests

A request as it comes in a stage's inputs. Text that is absent or of another shape reads as
empty; only a source that is not known is refused.
-/
namespace FleetCatalog.Patch

/-- Where the payload comes from. -/
inductive Source
  /-- From the catalog that the content names. -/
  | catalog
  /-- The content is the payload. -/
  | inline
  deriving DecidableEq, Inhabited

/-- The source that a word names; no word names the catalog. -/
def Source.named (word : String) : Except PatchError Source :=
  if word = "" ∨ word = "catalog" then .ok catalog
  else if word = "inline" then .ok inline
  else .error (.unknownSource word)

/-- What is to be patched, and with what. -/
structure Request where
  objectType : String
  objectName : String
  objectScope : String
  source : Source
  content : Option Value
  component : String
  property : String
  subKey : String
  dedupKey : String
  action : Action
  /-- The value that the payload's templates see, if it is given. -/
  context : Option Value
  deriving DecidableEq, Inhabited

/-- The text of an input. -/
def inputText (inputs : Mapping) (key : String) : String :=
  match Fields.get? key inputs with
  | some (.string s) => s
  | _ => ""

/-- The scope that is meant, if none is given the default one. -/
def effectiveScope (scope : String) : String := if scope = "" then defaultScope else scope

namespace Request

def ofInputs (inputs : Mapping) : Except PatchError Request :=
  (Source.named (inputText inputs "patchSource")).map fun source =>
    { objectType := inputText inputs "objectType"
      objectName := inputText inputs "objectName"
      objectScope := inputText inputs "objectScope"
      source
      content := Fields.get? "patchContent" inputs
      component := inputText inputs "component"
      property := inputText inputs "property"
      subKey := inputText inputs "subKey"
      dedupKey := inputText inputs "dedupKey"
      action := Action.named (inputText inputs "patchAction")
      context := Fields.get? "context" inputs }

def scope (r : Request) : String := effectiveScope r.objectScope

/-- The overlay in which the payload is traced. -/
def overlay (r : Request) : Overlay := { value := r.context }

/-- The sequence that is addressed, with a payload for it. -/
def target (r : Request) (payload : Mapping) : Target where
  property := r.property
  subKey := r.subKey
  payload := payload
  key := r.dedupKey
  action := r.action

end Request
end FleetCatalog.Patch
