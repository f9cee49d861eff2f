/-
RouteRegistry/MarkerNames.lean

The markers a pass looks for, and what it reads off them.

`MarkerNames` lists the simple names of each of the three markers.  A
configuration marker gives a `Configuration`, an extra-route marker an
`ExtraRoute`; both take their place from the marker, or else from the type
that carries it.  An argument is looked for under its keys first and by
position only if no key is there (`Marker.argument`).
-/
import RouteRegistry.Declaration

namespace RouteRegistry

/-- The simple names under which the markers are recognised. -/
structure MarkerNames where
  configuration : List String
  extraRoute : List String
  ignore : List String
  deriving DecidableEq, Inhabited

/-- The names that hold where none are configured. -/
def MarkerNames.default : MarkerNames :=
  ⟨["AutoRoutes", "AutoRouteGeneration"], ["ExtraRoute"], ["IgnoreRoute"]⟩

/-- What a configuration marker says, and on which type. -/
structure Configuration where
  carrier : DeclId
  /-- The simple name of the marker as written. -/
  marker : String
  space : String
  /-- Absent when the argument is missing or no string. -/
  suffix : Option String
  origin : Option Location
  deriving DecidableEq, Inhabited

/-- The suffix, if it shows anything. -/
def Configuration.usableSuffix (c : Configuration) : Option String :=
  c.suffix.filter fun s => !Text.isBlank s

/-- What an extra-route marker says, and on which type. -/
structure ExtraRoute where
  carrier : DeclId
  name : Option String
  explicitType : Option String
  origin : Option Location
  deriving DecidableEq, Inhabited

/-- The name, if it shows anything. -/
def ExtraRoute.usableName (e : ExtraRoute) : Option String :=
  e.name.filter fun s => !Text.isBlank s

/-! ### Reading markers -/

namespace MarkerNames

/-- The keys under which a configuration marker may give its suffix. -/
def suffixKeys : List String := ["suffix", "value"]

/-- The keys under which an extra route may give its name. -/
def routeNameKeys : List String := ["value", "routeName", "route"]

/-- The keys under which an extra route may give its type. -/
def targetTypeKeys : List String := ["target", "targetType", "type"]

/-- What a configuration marker on the carrier says.  A suffix that is no string is none, and a
marker without a place stands at its carrier's. -/
def configurationOf (carrier : Declaration) (m : Marker) : Configuration where
  carrier := carrier.id
  marker := m.simpleName
  space := carrier.space
  -- chosen first and read then: an argument that is no string is not passed over for another
  suffix := (m.argument 0 suffixKeys).bind MarkerValue.str?
  origin := m.origin.or carrier.origin

/-- What an extra-route marker on the carrier says, with the same rule for its place. -/
def extraRouteOf (carrier : Declaration) (m : Marker) : ExtraRoute where
  carrier := carrier.id
  name := (m.argument 0 routeNameKeys).bind MarkerValue.str?
  explicitType := (m.argument 1 targetTypeKeys).bind MarkerValue.typeRef?
  origin := m.origin.or carrier.origin

/-- The first configuration marker of the declaration. -/
def configuration? (names : MarkerNames) (d : Declaration) : Option Configuration :=
  (d.markersNamed names.configuration).head?.map (configurationOf d)

/-- The extra routes of the declaration, in the order written. -/
def extraRoutes (names : MarkerNames) (d : Declaration) : List ExtraRoute :=
  (d.markersNamed names.extraRoute).map (extraRouteOf d)

/-- The declaration carries a marker that keeps it out of discovery. -/
def ignores (names : MarkerNames) (d : Declaration) : Bool := d.hasMarker names.ignore

end MarkerNames

end RouteRegistry
