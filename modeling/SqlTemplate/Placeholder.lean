import SqlTemplate.ParamType
import SqlTemplate.Text.Cursor

/-!
# Placeholder contents

The content of a bind placeholder is `property[:TYPE][,key=value]*`, or `(expression)` in place of
the property.

* `Placeholder.outline`: where the parts of a content lie;
* `Placeholder.parse`: what a content says;
* `Placeholder.Reason`: why a content is refused.
-/

namespace SqlTemplate

/-- What a placeholder asks for. -/
inductive Target where
  /-- The property at a path. -/
  | property (path : String)
  /-- The value of an expression. -/
  | expression (text : String)
  deriving DecidableEq, Repr

/-- The content of a placeholder, read. -/
structure Placeholder where
  target : Target
  jdbcType : Option String := none
  options : List (String × String) := []
  deriving DecidableEq, Repr

namespace Placeholder

/-! ## 1. Refusals -/

/-- The keys that an option may have. -/
def optionKeys : List String :=
  ["javaType", "jdbcType", "mode", "numericScale", "resultMap", "typeHandler", "jdbcTypeName"]

/-- Why a content is refused. Positions count bytes from the start of the content. -/
inductive Reason where
  | unbalanced
  | missingProperty (position : Nat)
  | missingType (position : Nat)
  | unexpected (position : Nat)
  | noPair (option : String)
  | unknownOption (key : String)
  | unknownName (cause : NameError)
  | badScale (text : String)
  deriving DecidableEq, Repr

/-- The wording of a refusal. -/
def Reason.message : Reason → String
  | .unbalanced => "unbalanced parentheses"
  | .missingProperty position => "missing property at position " ++ toString position
  | .missingType position => "missing jdbc type at position " ++ toString position
  | .unexpected position => "parsing error at position " ++ toString position
  | .noPair option => "expected key=value, found '" ++ option ++ "'"
  | .unknownOption key =>
    "unknown property '" ++ key ++ "', valid properties are " ++ Text.joinTexts "," optionKeys
  | .unknownName cause => cause.message
  | .badScale text => "invalid numericScale '" ++ text ++ "'"

/-! ## 2. Outline -/

/-- The parts of a content. -/
structure Outline where
  /-- Whether the target stands in parentheses. -/
  computed : Bool
  target : Text.Part
  jdbcType : Option Text.Part
  /-- What follows the comma in front of the options. -/
  options : Option Text.Part
  deriving DecidableEq, Repr

/-- The characters that are skipped in front of a target and behind it: the space and all
    controls of ASCII below it. -/
def isSkipped (c : Char) : Bool := c.toNat ≤ 0x20

/-- The text in front of the closing parenthesis that answers an opening one, and what follows the
    closing one. `depth` counts the parentheses that have been opened since and are still open. -/
def upToClosing : Nat → List Char → Option (List Char × List Char)
  | _, [] => none
  | depth, c :: cs =>
    if c = ')' then
      match depth with
      | 0 => some ([], cs)
      | depth + 1 => (upToClosing depth cs).map fun (inner, rest) => (c :: inner, rest)
    else
      let depth := if c = '(' then depth + 1 else depth
      (upToClosing depth cs).map fun (inner, rest) => (c :: inner, rest)

/-- The target at a place, whether it is computed, and the place behind it. -/
def outlineTarget (place : Text.Cursor) : Except Reason (Bool × Text.Part × Text.Cursor) :=
  match place.rest with
  | '(' :: cs =>
    match upToClosing 0 cs with
    | none => .error .unbalanced
    | some (inner, rest) =>
      let start := place.offset + 1
      let stop := start + Text.utf8Size inner
      .ok (true, ⟨start, stop, inner⟩, ⟨stop + 1, rest⟩)
  | _ =>
    let (part, next) := place.takeWhile fun c => c != ',' && c != ':'
    .ok (false, part, next)

/-- What follows the target: a type behind a colon, options behind a comma, or nothing. -/
def outlineRest (place : Text.Cursor) :
    Except Reason (Option Text.Part × Option Text.Part) :=
  match place.rest with
  | [] => .ok (none, none)
  | ':' :: cs =>
    let (part, next) := Text.Cursor.takeWhile (· != ',') ⟨place.offset + 1, cs⟩
    if (Text.trim part.raw).isEmpty then .error (.missingType (place.offset + 1))
    else
      match next.rest with
      | [] => .ok (some part, none)
      | _ :: options => .ok (some part, some (Text.Cursor.remainder ⟨next.offset + 1, options⟩))
  | ',' :: cs => .ok (none, some (Text.Cursor.remainder ⟨place.offset + 1, cs⟩))
  | _ => .error (.unexpected place.offset)

/-- The parts of a content. -/
def outline (content : List Char) : Except Reason Outline := do
  let start := (Text.Cursor.ofText content).skipWhile isSkipped
  let (computed, target, next) ← outlineTarget start
  if (Text.trim target.raw).isEmpty then throw (.missingProperty start.offset)
  let (jdbcType, options) ← outlineRest (next.skipWhile isSkipped)
  return { computed, target, jdbcType, options }

/-! ## 3. Reading -/

/-- The text of a part without its blank ends. -/
def trimmed (cs : List Char) : String := String.ofList (Text.trim cs)

/-- The pairs of a list of options. Blank options are left out; any other one is split at its
    first equals sign. -/
def readOptions : List (List Char) → Except Reason (List (String × String))
  | [] => .ok []
  | option :: rest =>
    if (Text.trim option).isEmpty then readOptions rest
    else
      match Text.splitOnce ['='] option with
      | none => .error (.noPair (trimmed option))
      | some (key, value) => do
        let pairs ← readOptions rest
        return (trimmed key, trimmed value) :: pairs

/-- What a content says. -/
def parse (content : List Char) : Except Reason Placeholder := do
  let parts ← outline content
  let text := trimmed parts.target.raw
  let options ←
    match parts.options with
    | none => .ok []
    | some part => readOptions (Text.splitAll ',' part.raw)
  return {
    target := if parts.computed then .expression text else .property text
    jdbcType := parts.jdbcType.map fun part => trimmed part.raw
    options }

end Placeholder

end SqlTemplate
