import FleetCatalog.SortedMap
import FleetCatalog.Number
/-!
# Values

The semi-structured data that catalogs, solutions and templates hold. A mapping keeps its
entries in insertion order; two values are the same if they differ only in that order and in
the sign of floating-point zeros.
-/
namespace FleetCatalog

/-- Semi-structured data. -/
inductive Value
  | null
  | bool (b : Bool)
  | number (n : Number)
  | string (s : String)
  | sequence (items : List Value)
  | mapping (fields : List (String × Value))
  deriving Inhabited

/-- Entries of a mapping in insertion order. -/
abbrev Mapping := Fields Value

namespace Value

/-- The short name of a value's shape. -/
def shape : Value → String
  | null => "null"
  | bool _ => "bool"
  | number _ => "number"
  | string _ => "string"
  | sequence _ => "sequence"
  | mapping _ => "mapping"

mutual
/-- Whether two values are equal, entry order included. -/
def eqb : Value → Value → Bool
  | null, null => true
  | bool a, bool b => decide (a = b)
  | number a, number b => decide (a = b)
  | string a, string b => decide (a = b)
  | sequence a, sequence b => eqbItems a b
  | mapping a, mapping b => eqbFields a b
  | _, _ => false

def eqbItems : List Value → List Value → Bool
  | [], [] => true
  | a :: r, b :: s => eqb a b && eqbItems r s
  | _, _ => false

def eqbFields : List (String × Value) → List (String × Value) → Bool
  | [], [] => true
  | (j, a) :: r, (k, b) :: s => decide (j = k) && eqb a b && eqbFields r s
  | _, _ => false
end

mutual
theorem eqb_iff : ∀ a b : Value, eqb a b = true ↔ a = b
  | null, b => by cases b <;> simp [eqb]
  | bool _, b => by cases b <;> simp [eqb]
  | number _, b => by cases b <;> simp [eqb]
  | string _, b => by cases b <;> simp [eqb]
  | sequence x, b => by
    cases b with
    | sequence y => simpa [eqb] using eqbItems_iff x y
    | _ => simp [eqb]
  | mapping x, b => by
    cases b with
    | mapping y => simpa [eqb] using eqbFields_iff x y
    | _ => simp [eqb]

theorem eqbItems_iff : ∀ a b : List Value, eqbItems a b = true ↔ a = b
  | [], b => by cases b <;> simp [eqbItems]
  | x :: r, b => by
    cases b with
    | nil => simp [eqbItems]
    | cons y s => simp [eqbItems, eqb_iff x y, eqbItems_iff r s]

theorem eqbFields_iff : ∀ a b : List (String × Value), eqbFields a b = true ↔ a = b
  | [], b => by cases b <;> simp [eqbFields]
  | (j, x) :: r, b => by
    cases b with
    | nil => simp [eqbFields]
    | cons y s => simp [eqbFields, eqb_iff x y.2, eqbFields_iff r s, Prod.ext_iff]
end

instance : DecidableEq Value := fun a b => decidable_of_iff _ (eqb_iff a b)

mutual
/-- The value with its entries in key order, at every level, and without negative zeros. -/
def canonical : Value → Value
  | null => null
  | bool b => bool b
  | number n => number n.canonical
  | string s => string s
  | sequence items => sequence (canonicalItems items)
  | mapping fs => mapping (canonicalFields fs)

def canonicalItems : List Value → List Value
  | [] => []
  | v :: r => canonical v :: canonicalItems r

def canonicalFields : List (String × Value) → List (String × Value)
  | [] => []
  | (k, v) :: r => SortedMap.place k (canonical v) (canonicalFields r)
end

/-- Sameness of values: entry order and the sign of a zero do not count. -/
def Same (a b : Value) : Prop := canonical a = canonical b

instance (a b : Value) : Decidable (Same a b) := inferInstanceAs (Decidable (_ = _))

theorem Same.refl (a : Value) : Same a a := rfl

mutual
/-- No mapping of the value, at any level, has a key twice. -/
def WellFormed : Value → Prop
  | sequence items => WellFormedItems items
  | mapping fs => Fields.Distinct fs ∧ WellFormedFields fs
  | _ => True

def WellFormedItems : List Value → Prop
  | [] => True
  | v :: r => WellFormed v ∧ WellFormedItems r

def WellFormedFields : List (String × Value) → Prop
  | [] => True
  | (_, v) :: r => WellFormed v ∧ WellFormedFields r
end

mutual
/-- Puts `f s` in the place of every string leaf `s`; keys are not leaves. -/
def mapStrings (f : String → String) : Value → Value
  | string s => string (f s)
  | sequence items => sequence (mapStringsItems f items)
  | mapping fs => mapping (mapStringsFields f fs)
  | v => v

def mapStringsItems (f : String → String) : List Value → List Value
  | [] => []
  | v :: r => mapStrings f v :: mapStringsItems f r

def mapStringsFields (f : String → String) : List (String × Value) → List (String × Value)
  | [] => []
  | (k, v) :: r => (k, mapStrings f v) :: mapStringsFields f r
end

mutual
/-- Puts the result of `f s` in the place of every string leaf `s`, leaf by leaf from the left. -/
def traverse {m : Type → Type} [Monad m] (f : String → m Value) : Value → m Value
  | string s => f s
  | sequence items => do return sequence (← traverseItems f items)
  | mapping fs => do return mapping (← traverseFields f fs)
  | v => pure v

def traverseItems {m : Type → Type} [Monad m] (f : String → m Value) :
    List Value → m (List Value)
  | [] => pure []
  | v :: r => do
    let w ← traverse f v
    let s ← traverseItems f r
    return w :: s

/-- Keys and their order stay as they are. -/
def traverseFields {m : Type → Type} [Monad m] (f : String → m Value) :
    List (String × Value) → m (List (String × Value))
  | [] => pure []
  | (k, v) :: r => do
    let w ← traverse f v
    let s ← traverseFields f r
    return (k, w) :: s
end

end Value
end FleetCatalog
