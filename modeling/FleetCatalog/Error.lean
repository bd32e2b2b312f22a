import FleetCatalog.Schema
import FleetCatalog.Settings.Source
import FleetCatalog.Store.Basic
import FleetCatalog.Template.Reference
/-!
# Errors

Why an operation fails, by cause, with the message and the coarse kind of each cause. The kind
is what callers act on: a record that a store does not have is of the same kind as a field that
no catalog has.
-/
namespace FleetCatalog

/-- Why a patch cannot be applied as it is addressed or with what it holds. -/
inductive PatchError
  | unknownSource (source : String)
  /-- The content does not name a catalog. -/
  | contentNotName
  /-- The content is not a mapping; its shape, if there is content. -/
  | contentNotMapping (shape : Option String)
  | contentNotComponent (cause : DecodeError)
  | payloadWithoutSpec
  | payloadNotComponent (cause : DecodeError)
  | targetNotSequence (property shape : String)
  | propertyNotMapping (subKey property shape : String)
  | entryNotSequence (property subKey shape : String)
  | entryMissing (subKey property : String)
  deriving DecidableEq, Inhabited

def PatchError.message : PatchError → String
  | unknownSource source => "patchSource '" ++ source ++ "' is not valid"
  | contentNotName => "patchContent is not valid: expected a catalog name"
  | contentNotMapping shape =>
    "patchContent is not valid: expected mapping, found " ++ shape.getD "nothing"
  | contentNotComponent cause => "patchContent is not a valid component: " ++ cause.message
  | payloadWithoutSpec => "patch payload has no component 'spec'"
  | payloadNotComponent cause => "patch payload 'spec' is not a component: " ++ cause.message
  | targetNotSequence property shape =>
    "target property '" ++ property ++ "' is not valid: expected sequence, found " ++ shape
  | propertyNotMapping subKey property shape =>
    "subKey '" ++ subKey ++ "' is not valid: property '" ++ property ++ "' is a " ++ shape ++
      ", not a mapping"
  | entryNotSequence property subKey shape =>
    "target properties are not valid: '" ++ property ++ "." ++ subKey ++ "' is a " ++ shape ++
      ", not a sequence"
  | entryMissing subKey property =>
    "subKey '" ++ subKey ++ "' is not valid: not present in property '" ++ property ++ "'"

/-- Why a catalog is not admitted. -/
inductive Refusal
  | schemaMissing (schema : String)
  | schemaWithoutSpec (schema : String)
  | schemaInvalid (schema : String) (cause : DecodeError)
  | violations (found : SortedMap Violation)
  | parentMissing (parent catalog : String)
  deriving DecidableEq, Inhabited

def Refusal.message : Refusal → String
  | schemaMissing schema => "schema '" ++ schema ++ "' not found"
  | schemaWithoutSpec schema => "schema '" ++ schema ++ "' has no spec property"
  | schemaInvalid schema cause => "invalid schema '" ++ schema ++ "': " ++ cause.message
  | violations found =>
    "schema validation error: " ++
      "; ".intercalate (found.toList.map fun e => e.1 ++ ": " ++ e.2.message)
  | parentMissing parent catalog =>
    "parent catalog '" ++ parent ++ "' of '" ++ catalog ++ "' does not exist"

/-- What does not come to an end. -/
inductive Cycle
  | parentLeadsBack (parent catalog : String)
  | chainRepeats (catalog origin : String)
  | expansionTooDeep (limit : Nat)
  deriving DecidableEq, Inhabited

def Cycle.message : Cycle → String
  | parentLeadsBack parent catalog =>
    "parent '" ++ parent ++ "' of catalog '" ++ catalog ++ "' leads back into its own chain"
  | chainRepeats catalog origin =>
    "catalog '" ++ catalog ++ "' appears twice in the parent chain of '" ++ origin ++ "'"
  | expansionTooDeep limit =>
    "template expansion nested deeper than " ++ toString limit ++ " levels"

/-- Why an operation fails. -/
inductive Error
  | patch (cause : PatchError)
  | fieldNotFound (field object : String)
  | refused (cause : Refusal)
  | cycle (cause : Cycle)
  | store (cause : StoreError)
  | eval (cause : EvalError)
  | settings (cause : SettingsError)
  deriving DecidableEq, Inhabited

/-- The coarse kind of an error. -/
inductive ErrorKind
  | badConfig
  | notFound
  | validateFailed
  | cycleDetected
  | store
  | eval
  | config
  deriving DecidableEq, Inhabited

namespace Error

def kind : Error → ErrorKind
  | patch _ => .badConfig
  | fieldNotFound _ _ => .notFound
  | refused _ => .validateFailed
  | cycle _ => .cycleDetected
  | store (.notFound _ _) => .notFound
  | store _ => .store
  | eval _ => .eval
  | settings (.connection _) => .badConfig
  | settings _ => .config

def message : Error → String
  | patch cause => "bad config: " ++ cause.message
  | fieldNotFound field object =>
    "not found: field '" ++ field ++ "' is not found in configuration '" ++ object ++ "'"
  | refused cause => "validation failed: " ++ cause.message
  | cycle cause => "cycle detected: " ++ cause.message
  | store cause => cause.message
  | eval cause => cause.message
  | settings cause => "configuration error: " ++ cause.message

end Error
end FleetCatalog
