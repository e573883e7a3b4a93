/-!
# Values of TOML documents

* `Toml.Value`: what a document assigns to a key;
* `Entries.assign?`: one more key with its value;
* `Entries.openTable?`, `Entries.openElement?`: what a header begins;
* `Entries.update?`: a change inside the table that a header has begun.

None of them lets anything be defined twice.
-/

namespace SqlTemplate.Toml

/-- How a table came about, which decides who may add to it. -/
inductive Origin where
  /-- In braces: it is complete. -/
  | braces
  /-- Under a header of its own. -/
  | header
  /-- As the parent of another table. A header of its own may follow. -/
  | parent
  /-- By a key with dots. -/
  | dotted
  deriving DecidableEq, Repr

/-- What a document assigns to a key. -/
inductive Value where
  | text (s : String)
  | boolean (b : Bool)
  /-- A number. -/
  | number
  /-- A date, a time of day or both. -/
  | moment
  | array (items : List Value)
  | table (origin : Origin) (entries : List (String × Value))
  /-- The tables under the headers in double brackets, at least one. -/
  | tables (elements : List (List (String × Value)))

/-- Keys with their values, in the order in which they were written. -/
abbrev Entries := List (String × Value)

namespace Entries

/-! ## 1. Change at a key -/

/-- Replaces the value of a key by what `f` makes of it, or puts one at the end; `f` may refuse. -/
def alter? (key : String) (f : Option Value → Option Value) : Entries → Option Entries
  | [] => (f none).map fun v => [(key, v)]
  | (k, v) :: rest =>
    if k = key then (f (some v)).map fun v => (k, v) :: rest
    else (alter? key f rest).map ((k, v) :: ·)

/-- Changes the last of a list of tables. -/
def alterLast? (f : Entries → Option Entries) : List Entries → Option (List Entries)
  | [] => none
  | [last] => (f last).map ([·])
  | first :: rest => (alterLast? f rest).map (first :: ·)

/-! ## 2. Keys -/

/-- Assigns a value to a key that does not have one. -/
def assignNew? (key : String) (v : Value) (entries : Entries) : Option Entries :=
  entries.alter? key fun
    | none => some v
    | some _ => none

/-- Assigns a value to a key behind a path of dotted keys. `last` is the key itself. Tables on the
    path are made where they are missing. The last one has to be made by dotted keys; on the way
    to it parents and lists of tables may stand. -/
def assign? (v : Value) (last : String) : List String → Entries → Option Entries
  | [], entries => assignNew? last v entries
  | key :: path, entries =>
    entries.alter? key fun
      | none => (assign? v last path []).map (.table .dotted)
      | some (.table .dotted inner) => (assign? v last path inner).map (.table .dotted)
      | some (.table .parent inner) =>
        if path.isEmpty then none else (assign? v last path inner).map (.table .parent)
      | some (.tables elements) =>
        if path.isEmpty then none
        else (alterLast? (assign? v last path) elements).map .tables
      | some _ => none

/-! ## 3. Headers -/

/-- Goes down a path of keys and changes the last one by `f`. Parents are made where they are
    missing; of a list of tables the last one is entered. -/
def descend? (f : Option Value → Option Value) (last : String) :
    List String → Entries → Option Entries
  | [], entries => entries.alter? last f
  | key :: path, entries =>
    entries.alter? key fun
      | none => (descend? f last path []).map (.table .parent)
      | some (.table .braces _) => none
      | some (.table origin inner) => (descend? f last path inner).map (.table origin)
      | some (.tables elements) => (alterLast? (descend? f last path) elements).map .tables
      | some _ => none

/-- Begins a table. Only a parent may exist already. -/
def openTable? (path : List String) (last : String) (entries : Entries) : Option Entries :=
  descend? (fun
    | none => some (.table .header [])
    | some (.table .parent inner) => some (.table .header inner)
    | some _ => none) last path entries

/-- Begins one more of a list of tables. -/
def openElement? (path : List String) (last : String) (entries : Entries) : Option Entries :=
  descend? (fun
    | none => some (.tables [[]])
    | some (.tables elements) => some (.tables (elements ++ [[]]))
    | some _ => none) last path entries

/-- Changes the table at a path, which exists. -/
def update? (f : Entries → Option Entries) : List String → Entries → Option Entries
  | [], entries => f entries
  | key :: path, entries =>
    entries.alter? key fun
      | some (.table origin inner) => (update? f path inner).map (.table origin)
      | some (.tables elements) => (alterLast? (update? f path) elements).map .tables
      | _ => none

end Entries

end SqlTemplate.Toml
