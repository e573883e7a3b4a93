import SqlTemplate.Value.Order

/-!
# Reading inside values

* `Value.attr?`: the attribute of a mapping or a structured object;
* `Value.item?`: the item of a mapping, a sequence, an iterable, a string or a byte string;
* `Value.size?`: the number of items;
* `Value.elements?`: the items one after the other;
* `Value.ofArguments`, `Value.ofCollection`: mappings made to be read as parameters.
-/

namespace SqlTemplate.Value

/-! ## 1. Attributes and items -/

/-- The attribute `name`. Only mappings and structured objects have attributes. -/
def attr? (v : Value) (name : String) : Option Value :=
  match v with
  | .map entries => find? (.str name) entries
  | .object attrs => attrs.lookup name
  | _ => none

/-- The place among `size` items that a key names. Negative numbers count from the end. -/
def place? (key : Value) (size : Nat) : Option Nat :=
  match key.asInt64? with
  | none => none
  | some n =>
    if 0 ≤ n then some n.toNat
    else if n.natAbs ≤ size then some (size - n.natAbs) else none

/-- The item that a place names. -/
def itemAt? (key : Value) (items : List Value) : Option Value :=
  match place? key items.length with
  | some i => items[i]?
  | none => none

/-- The item `key`. -/
def item? (v : Value) (key : Value) : Option Value :=
  match v with
  | .map entries => find? key entries
  | .object attrs =>
    match key with
    | .str name => attrs.lookup name
    | _ => none
  | .seq items => itemAt? key items
  | .iter items => itemAt? key items
  | .str s =>
    match place? key s.toList.length with
    | some i => s.toList[i]?.map fun c => .str (String.singleton c)
    | none => none
  | .bytes bs =>
    match place? key bs.length with
    | some i => bs[i]?.map fun b => .int b.toNat
    | none => none
  | _ => none

/-! ## 2. Items as a whole -/

/-- The number of characters, bytes, elements or entries. -/
def size? : Value → Option Nat
  | .str s => some s.toList.length
  | .bytes bs => some bs.length
  | .seq items => some items.length
  | .iter items => some items.length
  | .map entries => some entries.length
  | _ => none

/-- What going through a value yields: characters, elements or keys. A missing value yields
    nothing. -/
def elements? : Value → Option (List Value)
  | .undefined => some []
  | .null => some []
  | .str s => some (s.toList.map fun c => .str (String.singleton c))
  | .seq items => some items
  | .iter items => some items
  | .map entries => some (entries.map (·.1))
  | _ => none

/-! ## 3. Mappings made to be parameters -/

/-- The generic name of the argument at a position, counted from one. -/
def genericName (position : Nat) : String := "param" ++ toString position

/-- The entries of the arguments from `position` on. Each argument stands under its own name and,
    unless an argument bears that name, under the generic name of its position. -/
def argumentEntries (names : List String) : Nat → List (String × Value) → List (String × Value)
  | _, [] => []
  | position, (name, v) :: rest =>
    let others := argumentEntries names (position + 1) rest
    let generic := genericName position
    if names.contains generic then (name, v) :: others
    else (name, v) :: (generic, v) :: others

/-- The mapping of named arguments and their generic names `param1`, `param2` and so on. -/
def ofArguments (args : List (String × Value)) : Value :=
  ofNamed (argumentEntries (args.map (·.1)) 1 args)

/-- A value under the three names by which a sequence parameter is known. -/
def ofCollection (v : Value) : Value := ofNamed [("collection", v), ("list", v), ("array", v)]

end SqlTemplate.Value
