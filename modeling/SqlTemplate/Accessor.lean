import SqlTemplate.ParamType
import SqlTemplate.Path

/-!
# Access to a parameter

Rendering reads a parameter object through `Accessor` alone, so that any way of reading objects
can take the place of `Accessor.ofValue`, which follows paths into a value.
-/

namespace SqlTemplate

/-- Read access to the properties of one object. -/
structure Accessor where
  /-- The value at a path; `none` when there is none. -/
  read : String → Option Value
  /-- The declared type of what stands at a path. -/
  typeOf : String → ParamType := fun path =>
    match read path with
    | some v => .of v
    | none => .any
  /-- Whether the object is a plain mapping of names to values. -/
  isMapping : Bool := false

namespace Accessor

/-- The value at a path inside `root`. A path without steps names nothing. -/
def readPath (root : Value) (path : String) : Option Value :=
  match Path.parse path with
  | [] => none
  | steps => Path.read? root steps

/-- Reads what paths name inside a value. -/
def ofValue (root : Value) : Accessor where
  read := readPath root
  isMapping := root.kind == .map

/-- Whether there is a value at a path. -/
def canRead (a : Accessor) (path : String) : Bool := (a.read path).isSome

end Accessor

end SqlTemplate
