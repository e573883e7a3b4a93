import SqlTemplate.Text.Blank
import SqlTemplate.Value.Basic

/-!
# Declared types and directions of parameters

* `ParamType`: the type under which a value is bound, inferred by `ParamType.of` or declared by a
  name that `ParamType.read` knows;
* `Direction`: whether a driver reads a value for a marker, writes one, or both.
-/

namespace SqlTemplate

/-- A word that names no type or no direction. -/
inductive NameError where
  | paramType (word : String)
  | direction (word : String)
  deriving DecidableEq, Repr

/-- The wording of a `NameError`. -/
def NameError.message : NameError → String
  | .paramType word => "unknown value type '" ++ word ++ "'"
  | .direction word => "unknown parameter mode '" ++ word ++ "'"

/-! ## 1. Types -/

/-- The declared type of a bound value. -/
inductive ParamType where
  | any
  | bool
  | integer
  | float
  | string
  | bytes
  | sequence
  | map
  | object
  deriving DecidableEq, Repr

namespace ParamType

/-- The type of a value. A missing value may be of any type. -/
def of : Value → ParamType
  | .undefined => .any
  | .null => .any
  | .bool _ => .bool
  | .int _ => .integer
  | .float _ => .float
  | .str _ => .string
  | .bytes _ => .bytes
  | .seq _ => .sequence
  | .iter _ => .sequence
  | .map _ => .map
  | .object _ => .object

/-- The types whose values are bound as they are. -/
def isScalar : ParamType → Bool
  | .bool => true
  | .integer => true
  | .float => true
  | .string => true
  | .bytes => true
  | _ => false

/-- The name of a type. -/
def name : ParamType → String
  | .any => "any"
  | .bool => "bool"
  | .integer => "integer"
  | .float => "float"
  | .string => "string"
  | .bytes => "bytes"
  | .sequence => "sequence"
  | .map => "map"
  | .object => "object"

/-- All types. -/
def all : List ParamType :=
  [.any, .bool, .integer, .float, .string, .bytes, .sequence, .map, .object]

/-- The type with exactly the given name. -/
def ofName? (word : String) : Option ParamType := all.find? fun t => t.name == word

/-- The words that declare each type. Nothing declares a structured object: such a value may be of
    any type. -/
def words : List (ParamType × List String) := [
  (.any, ["any", "object"]),
  (.bool, ["bool", "boolean"]),
  (.integer, ["int", "integer", "long", "short", "byte", "i8", "i16", "i32", "i64", "u8", "u16",
    "u32", "u64", "biginteger"]),
  (.float, ["float", "double", "decimal", "bigdecimal", "f32", "f64"]),
  (.string, ["string", "str", "char", "character"]),
  (.bytes, ["bytes", "byte[]", "_byte[]"]),
  (.sequence, ["list", "seq", "sequence", "array", "collection"]),
  (.map, ["map", "hashmap", "mapping"])]

/-- The type that a word declares, blank ends and the case of ASCII letters aside. -/
def read (text : String) : Except NameError ParamType :=
  let word := (Text.trimText text).toLower
  match words.find? fun entry => entry.2.contains word with
  | some entry => .ok entry.1
  | none => .error (.paramType word)

end ParamType

/-! ## 2. Directions -/

/-- The direction of a bound parameter. -/
inductive Direction where
  | input
  | output
  | inputOutput
  deriving DecidableEq, Repr

namespace Direction

/-- Whether the driver reads a value. -/
def isInput : Direction → Bool
  | .output => false
  | _ => true

/-- The name of a direction. -/
def name : Direction → String
  | .input => "IN"
  | .output => "OUT"
  | .inputOutput => "INOUT"

/-- All directions. -/
def all : List Direction := [.input, .output, .inputOutput]

/-- The direction with exactly the given name. -/
def ofName? (word : String) : Option Direction := all.find? fun d => d.name == word

/-- The direction that a word names, blank ends and the case of ASCII letters aside. -/
def read (text : String) : Except NameError Direction :=
  let word := (Text.trimText text).toUpper
  match ofName? word with
  | some d => .ok d
  | none => .error (.direction word)

end Direction

end SqlTemplate
