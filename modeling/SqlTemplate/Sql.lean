import SqlTemplate.Text.Pieces
import SqlTemplate.Value.Display

/-!
# Quoting for SQL

A substitution splices text straight into a statement. The functions of this file give a text the
form in which it stands for itself there.

* `Sql.quote`: a string literal;
* `Sql.identifier`: a quoted name, part by part;
* `Sql.escapeLike`: a text whose wildcards are escaped, for the inside of a LIKE pattern;
* `Sql.inList`: a list of literals in parentheses.
-/

namespace SqlTemplate.Sql

/-- A text between two marks, with every mark in it doubled. -/
def enclose (mark : Char) (cs : List Char) : List Char :=
  mark :: (cs.flatMap (fun c => if c = mark then [mark, mark] else [c]) ++ [mark])

/-- A string literal. -/
def quote (s : String) : String := String.ofList (enclose '\'' s.toList)

/-- A quoted name. Dots separate its parts, each of which is quoted on its own. -/
def identifier (s : String) : String :=
  String.ofList (Text.joinWith ['.'] ((Text.splitAll '.' s.toList).map (enclose '"')))

/-- Whether a character means something in a LIKE pattern. -/
def isWildcard (c : Char) : Bool := c == '%' || c == '_' || c == '\\'

/-- One character of a LIKE pattern that matches it alone. -/
def escapeLikeChar (c : Char) : List Char := if isWildcard c then ['\\', c] else [c]

/-- The LIKE pattern that matches a text alone, with a backslash as the escape character. -/
def escapeLike (s : String) : String := String.ofList (s.toList.flatMap escapeLikeChar)

/-- One element of a list of literals. Text is quoted, a missing value is `NULL`, and any other
    value stands as it is displayed. -/
def inListItem (v : Value) : String :=
  match v.text? with
  | some s => quote s
  | none => if v.isAbsent then "NULL" else v.display

/-- The operand of `IN`. -/
def inList (values : List Value) : String :=
  "(" ++ Text.joinTexts ", " (values.map inListItem) ++ ")"

end SqlTemplate.Sql
