import SqlTemplate.Decimal.Shortest
import SqlTemplate.Text.Quoted
import SqlTemplate.Text.Utf8
import SqlTemplate.Text.Pieces
import SqlTemplate.Value.Basic

/-!
# The text of a value

* `Value.display`: the text that a substitution splices in and that error messages show;
* `Value.inspect`: the form in which a value is shown inside a list or a mapping, where strings
  are quoted;
* `Value.text?`: the text that a value is.
-/

namespace SqlTemplate.Value

/-- The text of a truth value. -/
def boolText (b : Bool) : String := if b then "True" else "False"

/-- The text of a structured object, which shows none of its attributes. -/
def objectText : String := "<object>"

mutual

/-- The form of a value inside a list or a mapping. -/
def inspect : Value → String
  | .undefined => "undefined"
  | .null => "None"
  | .bool b => boolText b
  | .int n => toString n
  | .float x => Decimal.compactText x
  | .str s => Text.quoteText s
  | .bytes bs => Text.quoteBytes bs
  | .seq items => "[" ++ Text.joinTexts ", " (inspectItems items) ++ "]"
  | .iter items => "[" ++ Text.joinTexts ", " (inspectItems items) ++ "]"
  | .map entries => "\x7b" ++ Text.joinTexts ", " (inspectEntries entries) ++ "\x7d"
  | .object _ => objectText

/-- The elements of a list, each in its form. -/
def inspectItems : List Value → List String
  | [] => []
  | v :: vs => inspect v :: inspectItems vs

/-- The entries of a mapping, each with a colon between key and value. -/
def inspectEntries : List (Value × Value) → List String
  | [] => []
  | (k, v) :: rest => (inspect k ++ ": " ++ inspect v) :: inspectEntries rest

end

/-- The text of a value. Outside of lists and mappings strings stand as they are, bytes are read
    as text, floats have no exponent and an undefined value is empty. -/
def display : Value → String
  | .undefined => ""
  | .float x => Decimal.fixedText x
  | .str s => s
  | .bytes bs => String.ofList (Text.decodeLossy bs)
  | v => inspect v

/-- The text that a value is: a string, or bytes that encode one. -/
def text? : Value → Option String
  | .str s => some s
  | .bytes bs => Text.decode? bs
  | _ => none

end SqlTemplate.Value
