import SqlTemplate.Pattern.Common
import SqlTemplate.Pattern.Match

/-!
# Checks of substituted text

* `Compiler`: an engine of regular expressions;
* `Check`: a pattern together with what its anchored form has been compiled to;
* `Check.compile`: the check of a pattern;
* `Check.accepts`: whether a text passes.
-/

namespace SqlTemplate

namespace Pattern

/-- An engine of regular expressions. -/
structure Compiler where
  /-- What finds out whether some part of a text matches a pattern; `none` when the pattern does not
      compile. -/
  compile? : List Char → Option (List Char → Bool)

/-- The engine of the common dialect. -/
def Compiler.common : Compiler where
  compile? pattern := (Dialect.common.parse? pattern).map Regex.isMatch

end Pattern

/-- A pattern that does not compile. -/
structure PatternError where
  pattern : String
  deriving DecidableEq, Repr

/-- The wording of a `PatternError`. -/
def PatternError.message (e : PatternError) : String :=
  "invalid validation pattern '" ++ e.pattern ++ "'"

namespace Check

/-- The pattern between anchors, as one text. -/
def anchored (pattern : String) : List Char :=
  ['^', '(', '?', ':'] ++ pattern.toList ++ [')', '$']

end Check

/-- A pattern for substituted text, compiled. -/
structure Check where
  pattern : String
  compiler : Pattern.Compiler
  /-- Whether some part of a text matches the anchored form. -/
  search : List Char → Bool
  compiled : compiler.compile? (Check.anchored pattern) = some search

namespace Check

/-- The check of a pattern. -/
def compile (pattern : String) (compiler : Pattern.Compiler := .common) :
    Except PatternError Check :=
  match h : compiler.compile? (anchored pattern) with
  | some search => .ok ⟨pattern, compiler, search, h⟩
  | none => .error ⟨pattern⟩

/-- Whether a text passes. -/
def accepts (check : Check) (text : String) : Bool := check.search text.toList

end Check

end SqlTemplate
