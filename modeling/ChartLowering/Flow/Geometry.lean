import ChartLowering.Schema.View

/-
  The geometry of a unit.

  A unit places things on a map by pairs of coordinates, the primary pair and a secondary one, and
  by a shape field that holds geometry. Each of these is a geometry role; the position of a role in
  the list numbers the geometry signal that is extracted for it.
-/

namespace ChartLowering

/-- A longitude and a latitude. -/
structure CoordinatePair where
  longitude : Coordinate
  latitude : Coordinate
deriving Repr, DecidableEq

namespace CoordinatePair

/-- A pair is present if one of its sides is. -/
def isPresent (p : CoordinatePair) : Bool := !(p.longitude.isAbsent && p.latitude.isAbsent)

def toList (p : CoordinatePair) : List Coordinate := [p.longitude, p.latitude]

def toJson (p : CoordinatePair) : Json := .arr (p.toList.map Coordinate.toJson)

end CoordinatePair

/-- A source of geometry. -/
inductive GeometryRole where
  | coordinates (pair : CoordinatePair)
  | shape (field : String)
deriving Repr, DecidableEq

namespace UnitSpec

/-- A channel as a coordinate; no coordinate if it has not exactly one definition. -/
def coordinate (u : UnitSpec) (c : Channel) : Coordinate :=
  match u.channel? c with
  | some d => d.coordinate
  | none => .absent

/-- The present pairs of coordinates, each with the suffix of its position fields. -/
def coordinatePairs (u : UnitSpec) : List (String × CoordinatePair) :=
  Channel.geoPairs.filterMap fun (suffix, lon, lat) =>
    let pair : CoordinatePair := ⟨u.coordinate lon, u.coordinate lat⟩
    if pair.isPresent then some (suffix, pair) else none

/-- The shape field that holds geometry. -/
def shapeField? (u : UnitSpec) : Option String :=
  match u.channel? .shape with
  | some d => if d.measure = some .geojson then d.field? else none
  | none => none

/-- The geometry roles: coordinate pairs, then a shape field. -/
def geometryRoles (u : UnitSpec) : List GeometryRole :=
  u.coordinatePairs.map (fun p => .coordinates p.2) ++ (u.shapeField?.map .shape).toList

end UnitSpec

/-- The last part of the name of a unit's `i`-th geometry signal. -/
def geometrySuffix (i : Nat) : String := "geojson_" ++ toString i

end ChartLowering
