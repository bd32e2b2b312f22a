import FleetCatalog.Error
import FleetCatalog.Patch.Sequence
import FleetCatalog.Solution
/-!
# Patching components

A whole component is addressed by its name. Inside a component a sequence is addressed: a
property, or an entry of a property that is a mapping.
-/
namespace FleetCatalog.Patch

/-- Replaces, appends or removes a component. -/
def components (cs : List Component) (c : Component) (action : Action) : Patched (List Component) :=
  patchFirst (fun d => decide (d.name = c.name)) c action cs

/-- A payload for a sequence that is addressed inside a component. -/
structure Target where
  property : String
  /-- The entry of the property that is meant; empty for the property itself. -/
  subKey : String := ""
  payload : Mapping
  key : String := ""
  action : Action := .add
  deriving DecidableEq, Inhabited

/-- Patches the sequence that is addressed inside a property's value. -/
def Target.patchValue (t : Target) (v : Value) : Except PatchError (Patched Value) :=
  if t.subKey = "" then
    match v with
    | .sequence items => .ok ((sequence items t.payload t.key t.action).map .sequence)
    | v => .error (.targetNotSequence t.property v.shape)
  else
    match v with
    | .mapping detail =>
      match Fields.get? t.subKey detail with
      | some (.sequence items) =>
        .ok ((sequence items t.payload t.key t.action).map fun items =>
          .mapping (Fields.put t.subKey (.sequence items) detail))
      | some v => .error (.entryNotSequence t.property t.subKey v.shape)
      | none => .error (.entryMissing t.subKey t.property)
    | v => .error (.propertyNotMapping t.subKey t.property v.shape)

/-- Patches the sequence that is addressed in a component. An absent property is left alone. -/
def Target.patch (t : Target) (c : Component) : Except PatchError (Patched Component) :=
  match Fields.get? t.property c.properties with
  | none => .ok ⟨false, c⟩
  | some v =>
    (t.patchValue v).map fun p =>
      p.map fun w => { c with properties := Fields.put t.property w c.properties }

/-- Patches the first component of a name. A component that is not there is left alone. -/
def Target.patchNamed (t : Target) (name : String) :
    List Component → Except PatchError (Patched (List Component))
  | [] => .ok ⟨false, []⟩
  | c :: r =>
    if c.name = name then (t.patch c).map fun p => p.map (· :: r)
    else (patchNamed t name r).map fun p => p.map (c :: ·)

end FleetCatalog.Patch
