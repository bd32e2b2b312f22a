import FleetCatalog.Value
/-!
# Patching a list

Adding an entry to a list, in place of the first one that it replaces or at the end, and removing
the first one that is meant. Each says whether it changed anything, so that nothing has to be
written if not.
-/
namespace FleetCatalog.Patch

/-- What to do with the entry that is addressed. -/
inductive Action
  /-- Replace it, or append if there is none. -/
  | add
  | remove
  deriving DecidableEq, Inhabited

/-- Only the word for removal removes; every other one adds. -/
def Action.named (word : String) : Action := if word = "remove" then remove else add

/-- Something that may have been changed. -/
structure Patched (α : Type) where
  changed : Bool
  result : α
  deriving DecidableEq, Inhabited

def Patched.map {α β : Type} (f : α → β) (p : Patched α) : Patched β := ⟨p.changed, f p.result⟩

/-- Puts `new` in the place of the first entry that satisfies `p`; none if there is no such
entry. -/
def replaceFirst {α : Type} (p : α → Bool) (new : List α) : List α → Option (List α)
  | [] => none
  | a :: r => if p a then some (new ++ r) else (replaceFirst p new r).map (a :: ·)

/-- Replaces or removes the first entry that satisfies `p`. Without one, adding appends. -/
def patchFirst {α : Type} (p : α → Bool) (a : α) (action : Action) (l : List α) :
    Patched (List α) :=
  match action with
  | .add =>
    match replaceFirst p [a] l with
    | some l => ⟨true, l⟩
    | none => ⟨true, l ++ [a]⟩
  | .remove =>
    match replaceFirst p [] l with
    | some l => ⟨true, l⟩
    | none => ⟨false, l⟩

/-- Whether two fields carry the same key. Numbers are compared by quantity, so that `1` and
`1.0` are one key. Two absent fields are alike. -/
def alike : Option Value → Option Value → Bool
  | some (.number a), some (.number b) => decide (Double.Same a.toDouble b.toDouble)
  | some a, some b => decide (Value.Same a b)
  | none, none => true
  | _, _ => false

/-- Whether an entry is a mapping with the payload's value under the key. -/
def addresses (key : String) (payload : Mapping) : Value → Bool
  | .mapping fs => alike (Fields.get? key fs) (Fields.get? key payload)
  | _ => false

/-- Patches a sequence with a payload. Without a key no entry is addressed. -/
def sequence (seq : List Value) (payload : Mapping) (key : String) (action : Action) :
    Patched (List Value) :=
  patchFirst (fun entry => decide (key ≠ "") && addresses key payload entry) (.mapping payload)
    action seq

end FleetCatalog.Patch
