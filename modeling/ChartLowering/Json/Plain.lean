import ChartLowering.Json.Basic

/-
  Plain values: what can be handed on to any reader.

  A plain value has no infinite number and no `nan`; `plain` puts null for these. Values also have a
  depth, and one that is nested deeper than `depthLimit` is not handed on at all.
-/

namespace ChartLowering.Json

mutual

/-- The value with null for every number that is not finite. -/
def plain : Json → Json
  | .num n => if n.isFinite then .num n else .null
  | .arr items => .arr (plainItems items)
  | .table rows => .table (plainItems rows)
  | .obj fields => .obj (plainFields fields)
  | j => j

def plainItems : List Json → List Json
  | [] => []
  | v :: rest => plain v :: plainItems rest

def plainFields : List (String × Json) → List (String × Json)
  | [] => []
  | (k, v) :: rest => (k, plain v) :: plainFields rest

end

mutual

/-- How many values lie in each other: one for a value without parts. -/
def depth : Json → Nat
  | .arr items => depthItems items + 1
  | .table rows => depthItems rows + 1
  | .obj fields => depthFields fields + 1
  | _ => 1

def depthItems : List Json → Nat
  | [] => 0
  | v :: rest => max (depth v) (depthItems rest)

def depthFields : List (String × Json) → Nat
  | [] => 0
  | (_, v) :: rest => max (depth v) (depthFields rest)

end

/-- The depth of a value that can be handed on is at most this. -/
def depthLimit : Nat := 255

end ChartLowering.Json
