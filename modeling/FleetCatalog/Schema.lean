import FleetCatalog.Record
import FleetCatalog.Text.Numeral
/-!
# Schemas

Rules for the properties of a catalog: whether a property has to be there and which type it has.
Properties are often text, so a text that reads as a number or a truth value satisfies the type.
-/
namespace FleetCatalog

/-- The type that a rule asks for. -/
inductive PropertyType
  | string
  | int
  | uint
  | float
  | bool
  deriving DecidableEq, Inhabited

namespace PropertyType

def name : PropertyType → String
  | string => "string"
  | int => "int"
  | uint => "uint"
  | float => "float"
  | bool => "bool"

def all : List PropertyType := [string, int, uint, float, bool]

def named (s : String) : Except DecodeError PropertyType :=
  match all.find? fun t => decide (t.name = s) with
  | some t => .ok t
  | none => .error (.unknownVariant s (all.map name))

/-- A type by its name, or as a mapping of that name alone to null. -/
def decode : Value → Except DecodeError PropertyType
  | .string s => named s
  | .mapping [(k, v)] => do
    let t ← named k
    match v with
    | .null => return t
    | _ => .error (.wrongType v.found .unit)
  | .mapping _ => .error .notSingleKey
  | v => .error (.wrongType v.found .variant)

def encode (t : PropertyType) : Value := .string t.name

instance : Record PropertyType := ⟨decode, encode⟩

/-- Whether a value is of the type or is a text that reads as one. -/
def admits : PropertyType → Value → Bool
  | string, .string _ => true
  | int, .number (.int _) => true
  | int, .string s => (Text.signed? s.toList).isSome
  | uint, .number (.int n) => decide (0 ≤ n)
  | uint, .string s => (Text.unsigned? s.toList).isSome
  | float, .number _ => true
  | float, .string s => Text.isFloat s.toList
  | bool, .bool _ => true
  | bool, .string s => (Text.bool? s.toList).isSome
  | _, _ => false

end PropertyType

/-- What is asked of one property. -/
structure Rule where
  required : Bool := false
  type : Option PropertyType := none
  deriving DecidableEq, Inhabited

namespace Rule

def setField (key : String) (v : Value) (r : Rule) : Except DecodeError Rule :=
  match key with
  | "required" => (Decode.boolean v).map fun x => { r with required := x }
  | "type" => (Decode.optional PropertyType.decode v).map fun x => { r with type := x }
  | _ => .ok r

def decode : Value → Except DecodeError Rule :=
  Decode.record "Rule" ["required", "type"] setField {}

def encode (r : Rule) : Value :=
  .mapping <|
    [("required", .bool r.required)] ++ Encode.unlessAbsent "type" (r.type.map PropertyType.encode)

instance : Record Rule := ⟨decode, encode⟩

end Rule

/-- How a property offends against a rule. -/
inductive Violation
  | missing
  | mistyped (expected : PropertyType) (found : String)
  deriving DecidableEq

def Violation.message : Violation → String
  | missing => "missing required property"
  | mistyped expected found => "expected " ++ expected.name ++ ", found " ++ found

/-- The violation of a rule by a property's value, absent or present. -/
def Rule.violation (r : Rule) : Option Value → Option Violation
  | none => if r.required then some .missing else none
  | some v =>
    match r.type with
    | none => none
    | some t => if t.admits v then none else some (.mistyped t v.shape)

/-- Rules by the name of the property. -/
structure Schema where
  rules : SortedMap Rule := ∅
  deriving DecidableEq, Inhabited

namespace Schema

def setField (key : String) (v : Value) (s : Schema) : Except DecodeError Schema :=
  match key with
  | "rules" => (Decode.sorted Rule.decode v).map fun x => { s with rules := x }
  | _ => .ok s

def decode : Value → Except DecodeError Schema := Decode.record "Schema" ["rules"] setField {}

def encode (s : Schema) : Value :=
  .mapping [("rules", .mapping (s.rules.toList.map fun e => (e.1, e.2.encode)))]

instance : Record Schema := ⟨decode, encode⟩

/-- The offending properties, by name. -/
def violations (s : Schema) (properties : Mapping) : SortedMap Violation :=
  s.rules.filterMap fun name rule => rule.violation (Fields.get? name properties)

end Schema
end FleetCatalog
