import FleetCatalog.Value
import FleetCatalog.Text.Quoted
/-!
# Records

A record is read from a mapping, field by field in the mapping's order, or, where it names all
its fields, from a sequence of them in declaration order. The first bad field is the error;
missing fields are looked for after that. Writing a record gives a mapping.
-/
namespace FleetCatalog

/-- What was found where a record wants something else. -/
inductive Found
  | null
  | bool (b : Bool)
  | integer (n : Int)
  /-- A floating-point number, by its text. -/
  | float (text : List Char)
  | string (s : String)
  | sequence
  | map
  deriving DecidableEq, Inhabited

def Found.describe : Found → String
  | null => "null"
  | bool b => "boolean `" ++ (if b then "true" else "false") ++ "`"
  | integer n => "integer `" ++ String.ofList (Double.integerText n) ++ "`"
  | float text => "floating point `" ++ String.ofList text ++ "`"
  | string s => "string " ++ Text.quoted s
  | sequence => "sequence"
  | map => "map"

/-- What a record wants at some place. -/
inductive Wanted
  | text
  | boolean
  | map
  | sequence
  | record (name : String)
  /-- A variant by its name, or a mapping of that name alone. -/
  | variant
  /-- The empty content of a variant. -/
  | unit
  deriving DecidableEq, Inhabited

def Wanted.describe : Wanted → String
  | text => "a string"
  | boolean => "a boolean"
  | map => "a map"
  | sequence => "a sequence"
  | record name => "struct " ++ name
  | variant => "string or map"
  | unit => "unit"

/-- Why a value is not a record. -/
inductive DecodeError
  | wrongType (found : Found) (wanted : Wanted)
  | missingField (name : String)
  | duplicateField (name : String)
  | unknownVariant (name : String) (known : List String)
  /-- A variant written as a mapping of no key or of several. -/
  | notSingleKey
  | tooManyElements (length : Nat)
  | tooFewElements (length : Nat) (record : String) (fields : Nat)
  deriving DecidableEq, Inhabited

namespace DecodeError

def message : DecodeError → String
  | wrongType found wanted =>
    "invalid type: " ++ found.describe ++ ", expected " ++ wanted.describe
  | missingField name => "missing field `" ++ name ++ "`"
  | duplicateField name => "duplicate field `" ++ name ++ "`"
  | unknownVariant name known =>
    "unknown variant `" ++ name ++ "`, expected one of " ++
      ", ".intercalate (known.map fun k => "`" ++ k ++ "`")
  | notSingleKey => "invalid value: map, expected map with a single key"
  | tooManyElements n =>
    "invalid length " ++ toString n ++ ", expected fewer elements in array"
  | tooFewElements n record fields =>
    "invalid length " ++ toString n ++ ", expected struct " ++ record ++ " with " ++
      toString fields ++ (if fields = 1 then " element" else " elements")

end DecodeError

/-- What a value looks like to a reader that wants something else. -/
def Value.found : Value → Found
  | .null => .null
  | .bool b => .bool b
  | .number (.int n) => .integer n
  | .number (.float x) => .float (Double.text .compact x)
  | .string s => .string s
  | .sequence _ => .sequence
  | .mapping _ => .map

/-- A type whose members are read from values and written as values. -/
class Record (α : Type) where
  decode : Value → Except DecodeError α
  encode : α → Value

namespace Decode

def text : Value → Except DecodeError String
  | .string s => .ok s
  | v => .error (.wrongType v.found .text)

def boolean : Value → Except DecodeError Bool
  | .bool b => .ok b
  | v => .error (.wrongType v.found .boolean)

def mapping : Value → Except DecodeError Mapping
  | .mapping fs => .ok fs
  | v => .error (.wrongType v.found .map)

/-- Null stands for absence. -/
def optional {α : Type} (decode : Value → Except DecodeError α) :
    Value → Except DecodeError (Option α)
  | .null => .ok none
  | v => (decode v).map some

/-- A mapping whose values are all of one type, by key. -/
def sorted {α : Type} (decode : Value → Except DecodeError α) :
    Value → Except DecodeError (SortedMap α)
  | .mapping fs => fs.foldlM (fun m e => (decode e.2).map fun a => m.insert e.1 a) ∅
  | v => .error (.wrongType v.found .map)

def items {α : Type} (decode : Value → Except DecodeError α) : Value → Except DecodeError (List α)
  | .sequence vs => vs.mapM decode
  | v => .error (.wrongType v.found .sequence)

/-- Sets fields one after another, starting from a record without them. -/
def fields {δ : Type} (set : String → Value → δ → Except DecodeError δ) (start : δ)
    (fs : List (String × Value)) : Except DecodeError δ :=
  fs.foldlM (fun d e => set e.1 e.2 d) start

/-- A record without required fields, as a mapping or as a sequence of the fields `declared`. -/
def record {δ : Type} (name : String) (declared : List String)
    (set : String → Value → δ → Except DecodeError δ) (start : δ) : Value → Except DecodeError δ
  | .mapping fs => fields set start fs
  | .sequence vs => do
    let d ← fields set start (declared.zip vs)
    if declared.length < vs.length then .error (.tooManyElements vs.length) else .ok d
  | v => .error (.wrongType v.found (.record name))

/-- A field that has to be there. A sequence that is too short to hold it is reported by its
length. -/
def required {α : Type} (source : Value) (name field : String) (count : Nat) :
    Option α → Except DecodeError α
  | some a => .ok a
  | none =>
    match source with
    | .sequence vs => .error (.tooFewElements vs.length name count)
    | _ => .error (.missingField field)

end Decode

namespace Encode

/-- A text field that is left out when empty. -/
def textUnlessEmpty (key s : String) : Mapping := if s = "" then [] else [(key, .string s)]

/-- A field that is left out when absent. -/
def unlessAbsent (key : String) : Option Value → Mapping
  | none => []
  | some v => [(key, v)]

/-- Texts by key. -/
def texts (m : SortedMap String) : Value := .mapping (m.toList.map fun e => (e.1, .string e.2))

/-- Texts by key, left out when there are none. -/
def textsUnlessEmpty (key : String) (m : SortedMap String) : Mapping :=
  if m.isEmpty then [] else [(key, texts m)]

end Encode
end FleetCatalog
