import FleetCatalog.Record
import FleetCatalog.Settings.Moment
/-!
# Settings and their merging

Configuration values, with tables in key order. A table laid over another is merged with it key
by key, tables within tables likewise; anything else replaces what was there. A value for a path
is laid over as the table that holds it at that path and nothing else (`branch`).
-/
namespace FleetCatalog

/-- A configuration value. -/
inductive Setting
  | text (s : String)
  | integer (n : Int)
  | float (x : Double)
  | bool (b : Bool)
  | moment (m : Moment)
  | list (items : List Setting)
  | table (entries : List (String × Setting))
  deriving Inhabited

/-- A table of settings, in ascending key order. -/
abbrev SettingTable := List (String × Setting)

namespace Setting

mutual
/-- A setting laid over what is there, if anything is. -/
def laidOver : Setting → Option Setting → Setting
  | table entries, some (table base) => table (merge entries base)
  | v, _ => v

/-- A table laid over another one, `base`. -/
def merge : SettingTable → SettingTable → SettingTable
  | [], base => base
  | (k, v) :: r, base => merge r (SortedMap.place k (laidOver v (Fields.get? k base)) base)
end

/-- The table at a key, empty if there is none. -/
def tableAt (k : String) (t : SettingTable) : SettingTable :=
  match Fields.get? k t with
  | some (table entries) => entries
  | _ => []

/-- A table with a value laid over it at a path. At the empty path only a table has an effect. -/
def mergeAt (t : SettingTable) : List String → Setting → SettingTable
  | [], table entries => merge entries t
  | [], _ => t
  | [k], v => SortedMap.place k (laidOver v (Fields.get? k t)) t
  | k :: rest, v => SortedMap.place k (table (mergeAt (tableAt k t) rest v)) t

/-- The table that holds a value at a path and nothing else; of a value that is no table nothing
is held at the empty path. -/
def branch : List String → Setting → SettingTable
  | [], table entries => entries
  | [], _ => []
  | [k], v => [(k, v)]
  | k :: rest, v => [(k, table (branch rest v))]

/-- The setting at the end of a path of keys. -/
def at? : Setting → List String → Option Setting
  | v, [] => some v
  | table entries, k :: rest => (Fields.get? k entries).bind fun v => v.at? rest
  | _, _ :: _ => none

mutual
/-- Tables at every level are in strictly ascending key order. -/
def Ascending : Setting → Prop
  | list items => AscendingItems items
  | table entries => (entries.Pairwise fun a b => a.1 < b.1) ∧ AscendingEntries entries
  | _ => True

def AscendingItems : List Setting → Prop
  | [] => True
  | v :: r => Ascending v ∧ AscendingItems r

def AscendingEntries : List (String × Setting) → Prop
  | [] => True
  | (_, v) :: r => Ascending v ∧ AscendingEntries r
end

mutual
/-- A setting as a value, a point in time as `moment` says. A number that is not finite has no
value and becomes null. -/
def valueWith (moment : Moment → Value) : Setting → Value
  | text s => .string s
  | integer n => .number (.int n)
  | float x => if x.isFinite then .number (.float x) else .null
  | bool b => .bool b
  | .moment m => moment m
  | list items => .sequence (valuesWith moment items)
  | table entries => .mapping (fieldsWith moment entries)

def valuesWith (moment : Moment → Value) : List Setting → List Value
  | [] => []
  | v :: r => valueWith moment v :: valuesWith moment r

def fieldsWith (moment : Moment → Value) : List (String × Setting) → List (String × Value)
  | [] => []
  | (k, v) :: r => (k, valueWith moment v) :: fieldsWith moment r
end

/-- A setting as its readers get it: a point in time is its text. -/
def toValue (s : Setting) : Value := valueWith (fun m => .string m.text) s

/-- A setting as it stands in its source: a point in time is the table that denotes it. -/
def written (s : Setting) : Value :=
  valueWith (fun m => .mapping [(Moment.reservedKey, .string m.text)]) s

mutual
/-- The setting for a value: mappings in key order. Null, and an integer that does not fit in
sixty-four signed bits, have none. -/
def ofValue : Value → Option Setting
  | .null => none
  | .bool b => some (bool b)
  | .number (.int n) => if n < Text.signedBound then some (integer n) else none
  | .number (.float x) => some (float x)
  | .string s => some (text s)
  | .sequence vs => (ofValues vs).map list
  | .mapping fs => (ofFields fs).map table

def ofValues : List Value → Option (List Setting)
  | [] => some []
  | v :: r => do
    let s ← ofValue v
    let t ← ofValues r
    return s :: t

def ofFields : List (String × Value) → Option SettingTable
  | [] => some []
  | (k, v) :: r => do
    let s ← ofValue v
    let t ← ofFields r
    return SortedMap.place k s t
end

/-- What a setting looks like to a reader that wants something else. -/
def found : Setting → Found
  | text s => .string s
  | integer n => .integer n
  | float x => .float (Double.text .plain x)
  | bool b => .bool b
  | moment m => .string m.text
  | list _ => .sequence
  | table _ => .map

end Setting
end FleetCatalog
