import SqlTemplate.Marker
import SqlTemplate.Token

/-!
# Queries

* `Query`: SQL with positional markers, and the bindings that hold their values;
* `Query.finalize`: replaces the bind placeholders of a text by markers;
* `Query.values`: the values to bind, each with the position of its marker;
* `Prepared`: SQL and markers that do not depend on a parameter.
-/

namespace SqlTemplate

/-! ## 1. Finalization -/

/-- What one render makes of a template: a query whose values are still to be bound. -/
structure Query where
  /-- SQL whose only placeholders are positional markers. -/
  sql : String
  /-- One marker per position, in order. -/
  markers : List Marker
  /-- The bindings at the end of the render. -/
  bindings : Bindings

/-- A step of the finalization: it adds to the markers, or it fails. -/
abbrev FinalizeM := StateT (List Marker) (Except RenderError)

namespace Query

/-- The marker in place of a placeholder: the next position. -/
def takeMarker (style : MarkerStyle) (bindings : Bindings) (content : List Char) :
    FinalizeM (Option (List Char)) := do
  let m ← liftM (Marker.ofContent content bindings)
  let markers ← get
  set (markers ++ [m])
  return some (style.marker (markers.length + 1)).toList

/-- The text with a marker in place of each bind placeholder. -/
def finalize (style : MarkerStyle) (text : String) (bindings : Bindings) :
    Except RenderError Query := do
  let (sql, markers) ← (Delimiters.bind.scan (takeMarker style bindings) text.toList).run []
  return { sql := String.ofList sql, markers, bindings }

/-! ## 2. Values -/

/-- A value for the marker at a position, counted from one. -/
structure Bound where
  position : Nat
  value : Value

/-- The values of the markers that a driver reads, counted from `position` on. The others count
    too. -/
def valuesFrom (bindings : Bindings) (engine : Engine) :
    Nat → List Marker → Except RenderError (List Bound)
  | _, [] => .ok []
  | position, m :: rest =>
    if m.direction.isInput then do
      let value ← m.resolve bindings engine
      let others ← valuesFrom bindings engine (position + 1) rest
      return ⟨position, value⟩ :: others
    else valuesFrom bindings engine (position + 1) rest

/-- The values to bind, in the order of their markers. -/
def values (q : Query) (engine : Engine) : Except RenderError (List Bound) :=
  valuesFrom q.bindings engine 1 q.markers

/-- The parameter that was rendered. -/
def parameter (q : Query) : Value := q.bindings.parameter

end Query

/-! ## 3. Queries without bindings -/

/-- The SQL and the markers of a query whose text is the same for every parameter. -/
structure Prepared where
  sql : String
  markers : List Marker
  deriving DecidableEq, Repr

namespace Prepared

/-- What is left of a query without its bindings. -/
def ofQuery (q : Query) : Prepared := ⟨q.sql, q.markers⟩

/-- The query for the bindings of one call. -/
def bind (p : Prepared) (bindings : Bindings) : Query := ⟨p.sql, p.markers, bindings⟩

end Prepared

end SqlTemplate
