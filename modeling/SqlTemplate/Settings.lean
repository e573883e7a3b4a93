import SqlTemplate.Marker
import SqlTemplate.Token
import SqlTemplate.Value.Order

/-!
# Settings

* `Settings`: what all renders of a backend share;
* `Settings.databaseFor?`: the dialect id of a database product;
* `Settings.expand`: replaces configuration variables in the text of a statement.
-/

namespace SqlTemplate

/-! ## 1. Tables of texts -/

/-- Texts under names, in ascending order of the names. -/
abbrev TextTable := List (String × String)

namespace TextTable

/-- Puts a text in its place. The text of a name that is there already is replaced. -/
def set (name text : String) : TextTable → TextTable
  | [] => [(name, text)]
  | (n, t) :: rest =>
    match Value.compareTexts name n with
    | .lt => (name, text) :: (n, t) :: rest
    | .eq => (n, text) :: rest
    | .gt => (n, t) :: set name text rest

/-- The table of a list of named texts. Of two texts with one name the later one counts. -/
def ofList (entries : List (String × String)) : TextTable :=
  entries.foldl (fun table (name, text) => set name text table) []

/-- The text of a name. -/
def get? (name : String) (table : TextTable) : Option String := table.lookup name

end TextTable

/-! ## 2. Settings -/

/-- What all renders of a backend share. -/
structure Settings where
  /-- The dialect id that templates see. -/
  databaseId : Option String := none
  /-- Dialect ids by a part of the name of the database product. -/
  aliases : TextTable := []
  markerStyle : MarkerStyle := .questionMark
  /-- The texts of the configuration variables. -/
  vars : TextTable := []
  /-- Whether a configuration variable can give a default of its own. -/
  defaultsEnabled : Bool := false
  /-- What stands between a configuration variable and its default. -/
  defaultSeparator : String := ":"
  deriving DecidableEq, Repr

namespace Settings

/-- The dialect id of a product: the one of the first alias that the product's name contains.
    Without any alias the name itself is the id. -/
def databaseFor? (s : Settings) (product : String) : Option String :=
  if s.aliases.isEmpty then some product
  else
    (s.aliases.find? fun entry => Text.occursIn entry.1.toList product.toList).map (·.2)

/-- A variable and its default, if the content of a substitution gives one. -/
def splitDefault? (s : Settings) (content : List Char) : Option (List Char × List Char) :=
  if s.defaultsEnabled && !s.defaultSeparator.toList.isEmpty then
    Text.splitOnce s.defaultSeparator.toList content
  else none

/-- The text of a configuration variable. A substitution that names none is left alone. -/
def variableText? (s : Settings) (content : List Char) : Option (List Char) :=
  match s.splitDefault? content with
  | some (name, default) =>
    some (((s.vars.get? (String.ofList name)).map String.toList).getD default)
  | none => (s.vars.get? (String.ofList content)).map String.toList

/-- The text with its configuration variables replaced. -/
def expand (s : Settings) (text : String) : String :=
  String.ofList (Delimiters.substitution.replace s.variableText? text.toList)

end Settings

end SqlTemplate
