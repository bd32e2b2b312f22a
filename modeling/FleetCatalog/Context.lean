import FleetCatalog.Value
/-!
# Evaluation contexts

The environment in which templates are resolved, and its specialisation: an overlay supplies
some of the parts and leaves the others as the base has them.
-/
namespace FleetCatalog

/-- What the references of a template can reach. -/
structure Context where
  inputs : Mapping := []
  outputs : Mapping := []
  value : Option Value := none
  properties : Mapping := []
  component : Option String := none
  deployment : Option Value := none
  deriving DecidableEq, Inhabited

/-- Parts of a context that replace those of a base. An absent part is inherited. -/
structure Overlay where
  inputs : Option Mapping := none
  outputs : Option Mapping := none
  value : Option Value := none
  properties : Option Mapping := none
  component : Option String := none
  deployment : Option Value := none
  deriving DecidableEq, Inhabited

/-- The base with the parts that the overlay supplies. -/
def Context.specialise (base : Context) (overlay : Overlay) : Context where
  inputs := overlay.inputs.getD base.inputs
  outputs := overlay.outputs.getD base.outputs
  value := overlay.value.or base.value
  properties := overlay.properties.getD base.properties
  component := overlay.component.or base.component
  deployment := overlay.deployment.or base.deployment

end FleetCatalog
