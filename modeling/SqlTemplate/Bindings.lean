import SqlTemplate.Accessor

/-!
# Bindings

The names that expressions and placeholders of one render can use: own entries, which are written
while rendering, and behind them the parameter, which is only read.

* `Entries`: named values in the order in which they were first written;
* `Source`: the parameter as the thing that answers for names without an entry;
* `Bindings.forParameter`: the bindings at the start of a render;
* `Bindings.get?`, `Bindings.readOwn?`, `Bindings.readParameter?`: reading.
-/

namespace SqlTemplate

/-! ## 1. Entries -/

/-- Named values in order. No name stands twice. -/
abbrev Entries := List (String × Value)

namespace Entries

/-- The value of a name. -/
def get? (name : String) : Entries → Option Value
  | [] => none
  | (n, v) :: rest => if n = name then some v else get? name rest

/-- Writes a value under a name. A name that is there keeps its place, a new one comes last. -/
def set (name : String) (value : Value) : Entries → Entries
  | [] => [(name, value)]
  | (n, v) :: rest => if n = name then (n, value) :: rest else (n, v) :: set name value rest

/-- Takes a name out. The others keep their order. -/
def erase (name : String) : Entries → Entries
  | [] => []
  | (n, v) :: rest => if n = name then rest else (n, v) :: erase name rest

end Entries

/-! ## 2. The parameter behind the entries -/

/-- How the parameter takes part in lookups. -/
inductive Source where
  /-- There is no parameter: it answers for no name. -/
  | absent
  /-- A scalar answers for every name with itself. -/
  | scalar (v : Value)
  /-- A mapping of names to values. -/
  | mapping (a : Accessor)
  /-- A structured object. -/
  | structured (a : Accessor)

/-- The four ways in which a parameter takes part in lookups. -/
inductive Shape where
  | absent
  | scalar
  | mapping
  | structured
  deriving DecidableEq, Repr

namespace Source

/-- The shape of a source. -/
def shape : Source → Shape
  | .absent => .absent
  | .scalar _ => .scalar
  | .mapping _ => .mapping
  | .structured _ => .structured

/-- What the parameter answers for a path. -/
def read? (path : String) : Source → Option Value
  | .absent => none
  | .scalar v => some v
  | .mapping a => a.read path
  | .structured a => a.read path

/-- The declared type of a path on the parameter. -/
def typeOf (path : String) : Source → ParamType
  | .absent => .any
  | .scalar v => .of v
  | .mapping a => a.typeOf path
  | .structured a => a.typeOf path

end Source

/-! ## 3. Bindings -/

/-- Own entries, and the parameter behind them. -/
structure Bindings where
  entries : Entries := []
  source : Source := .absent

namespace Bindings

/-- The entry that holds the parameter. -/
def parameterName : String := "_parameter"

/-- The entry that holds the dialect id. -/
def databaseName : String := "_databaseId"

/-- Without entries and without a parameter. -/
def empty : Bindings := {}

/-- The parameter as it is seeded, and how it takes part in lookups. A sequence is wrapped into a
    mapping that gives it its three names. `accessor` reads mappings and structured objects in
    place of paths into the value. -/
def seed (accessor : Option Accessor) (parameter : Value) : Value × Source :=
  match parameter with
  | .undefined => (.null, .absent)
  | .null => (.null, .absent)
  | .seq _ =>
    let wrapped := Value.ofCollection parameter
    (wrapped, .mapping (.ofValue wrapped))
  | .iter _ =>
    let wrapped := Value.ofCollection parameter
    (wrapped, .mapping (.ofValue wrapped))
  | .map _ => (parameter, .mapping (accessor.getD (.ofValue parameter)))
  | .object _ =>
    let accessor := accessor.getD (.ofValue parameter)
    (parameter, if accessor.isMapping then .mapping accessor else .structured accessor)
  | _ => (parameter, .scalar parameter)

/-- The bindings at the start of a render of `parameter`. -/
def forParameter (parameter : Value) (accessor : Option Accessor) (database : Option String) :
    Bindings :=
  let (seeded, source) := seed accessor parameter
  let id : Value :=
    match database with
    | some name => .str name
    | none => .null
  { entries := [(parameterName, seeded), (databaseName, id)], source }

/-- Whether a name has an entry. -/
def contains (b : Bindings) (name : String) : Bool := (b.entries.get? name).isSome

/-- The entry of a name. -/
def getOwn? (b : Bindings) (name : String) : Option Value := b.entries.get? name

/-- What a name stands for: its entry, or what the parameter answers. -/
def get? (b : Bindings) (name : String) : Option Value :=
  match b.entries.get? name with
  | some v => some v
  | none => b.source.read? name

/-- Writes an entry. -/
def insert (b : Bindings) (name : String) (value : Value) : Bindings :=
  { b with entries := b.entries.set name value }

/-- Takes an entry out. -/
def remove (b : Bindings) (name : String) : Bindings :=
  { b with entries := b.entries.erase name }

/-- The parameter as it was seeded. -/
def parameter (b : Bindings) : Value := (b.entries.get? parameterName).getD .null

/-- The shape of the parameter. -/
def shape (b : Bindings) : Shape := b.source.shape

/-- The name that a path starts with, if it starts with one. -/
def rootName? (path : String) : Option String :=
  match Path.parse path with
  | .name root :: _ => some root
  | _ => none

/-- The value at a path whose first step names an entry. -/
def readOwn? (b : Bindings) (path : String) : Option Value :=
  match Path.parse path with
  | .name root :: rest =>
    match b.entries.get? root with
    | some v => Path.read? v rest
    | none => none
  | _ => none

/-- Whether a path can be read from the entries. -/
def hasOwnPath (b : Bindings) (path : String) : Bool := (b.readOwn? path).isSome

/-- The value at a path on the parameter. -/
def readParameter? (b : Bindings) (path : String) : Option Value := b.source.read? path

/-- The declared type of a path on the parameter. -/
def parameterType (b : Bindings) (path : String) : ParamType := b.source.typeOf path

end Bindings

end SqlTemplate
