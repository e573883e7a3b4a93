import SqlTemplate.Text.Blank
import SqlTemplate.Text.Natural
import SqlTemplate.Value.Access

/-!
# Property paths

A path such as `orders[0].lines['sku'].qty` names a value inside another one.

* `Path.Step`: one step of a path, by name, by index or by key;
* `Path.parse`: the steps of a written path. Every text is a path;
* `Path.read?`: the value at the end of the steps. A step that leads nowhere, or to an undefined
  value, ends the reading.
-/

namespace SqlTemplate.Path

/-! ## 1. Steps -/

/-- One step into a value. -/
inductive Step where
  /-- The attribute of that name. -/
  | name (s : String)
  /-- The item at that place. -/
  | index (n : Nat)
  /-- The item under that key. -/
  | key (s : String)
  deriving DecidableEq, Repr

/-- The number of places that an index can name. -/
def indexBound : Nat := twoTo 64

/-- The quotation marks that may stand around a key. -/
def isQuote (c : Char) : Bool := c == '\'' || c == '"'

/-- The step that stands between brackets: a number is an index, everything else is a key. -/
def bracketStep (inner : List Char) : Step :=
  let inner := Text.trim inner
  match Text.readBounded? indexBound inner with
  | some n => .index n
  | none => .key (String.ofList (Text.trimBy isQuote inner))

/-- The step of a name that has been read, if any of it has. -/
def nameStep (name : List Char) : List Step :=
  if name.isEmpty then [] else [.name (String.ofList name)]

/-! ## 2. Parsing -/

/-- What is being read: a name or the inside of brackets, each with what it holds so far. -/
inductive Part where
  | name (cs : List Char)
  | bracket (cs : List Char)

/-- The steps of `cs` while `part` is being read. Dots end a name, blanks outside of brackets
    count for nothing, and brackets may stay open. -/
def stepsFrom : Part → List Char → List Step
  | .name cs, [] => nameStep cs
  | .bracket cs, [] => [bracketStep cs]
  | .name cs, c :: rest =>
    if c = '.' then nameStep cs ++ stepsFrom (.name []) rest
    else if c = '[' then nameStep cs ++ stepsFrom (.bracket []) rest
    else if Text.isBlank c then stepsFrom (.name cs) rest
    else stepsFrom (.name (cs ++ [c])) rest
  | .bracket cs, c :: rest =>
    if c = ']' then bracketStep cs :: stepsFrom (.name []) rest
    else stepsFrom (.bracket (cs ++ [c])) rest

/-- The steps of a written path. -/
def parse (path : String) : List Step := stepsFrom (.name []) (Text.trim path.toList)

/-! ## 3. Reading -/

/-- The value one step into another; `none` when it is missing or undefined. -/
def Step.take? (v : Value) (step : Step) : Option Value :=
  let found :=
    match step with
    | .name s => v.attr? s
    | .index n => v.item? (.int n)
    | .key s => v.item? (.str s)
  found.filter fun w => !w.isUndefined

/-- The value at the end of the steps. -/
def read? (v : Value) : List Step → Option Value
  | [] => some v
  | step :: rest =>
    match step.take? v with
    | some w => read? w rest
    | none => none

end SqlTemplate.Path
