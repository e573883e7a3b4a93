import SqlTemplate.Placeholder

/-!
# Failures of a render

* `EvalFault`: what is wrong with an expression or its evaluation;
* `RenderError`: why a render fails. Three of its forms wrap another failure and say where in the
  template it arose;
* `RenderError.root`: the failure inside all wrappings.
-/

namespace SqlTemplate

/-- What is wrong with an expression or its evaluation. -/
inductive EvalFault where
  | syntaxError
  | badEscape
  | undefinedError
  | invalidOperation
  | unknownFilter
  | unknownTest
  | unknownMethod
  | missingArgument
  | tooManyArguments
  /-- A fault of another expression language. -/
  | other (text : String)
  deriving DecidableEq, Repr

/-- The wording of a fault. -/
def EvalFault.message : EvalFault → String
  | .syntaxError => "syntax error"
  | .badEscape => "bad string escape"
  | .undefinedError => "undefined value"
  | .invalidOperation => "invalid operation"
  | .unknownFilter => "unknown filter"
  | .unknownTest => "unknown test"
  | .unknownMethod => "unknown method"
  | .missingArgument => "missing argument"
  | .tooManyArguments => "too many arguments"
  | .other text => text

/-- Why a render fails. -/
inductive RenderError where
  /-- An expression cannot be read or evaluated. -/
  | evaluation (expression : String) (fault : EvalFault)
  /-- A loop goes over a missing value. -/
  | nullIterable (expression : String)
  /-- A loop goes over a value without elements, which is shown. -/
  | notIterable (expression : String) (value : String)
  /-- A substituted text does not match the pattern of its literal. -/
  | validation (value : String) (pattern : String)
  /-- The content of a bind placeholder is refused. -/
  | placeholder (content : String) (reason : Placeholder.Reason)
  /-- The failure arose in the body of a conditional. -/
  | inConditional (test : String) (cause : RenderError)
  /-- The failure arose in the body of a loop, at the element with that place. -/
  | inLoop (collection : String) (index : Nat) (cause : RenderError)
  /-- The failure arose in the statement with that id. -/
  | inStatement (id : String) (cause : RenderError)
  deriving DecidableEq, Repr

namespace RenderError

/-- The failure inside all wrappings. -/
def root : RenderError → RenderError
  | .inConditional _ cause => cause.root
  | .inLoop _ _ cause => cause.root
  | .inStatement _ cause => cause.root
  | e => e

/-- The wording of a failure. A wrapping says where the failure arose and leaves the cause to its
    own wording. -/
def message : RenderError → String
  | .evaluation expression fault =>
    "error evaluating expression '" ++ expression ++ "': " ++ fault.message
  | .nullIterable expression => "the expression '" ++ expression ++ "' evaluated to a null value"
  | .notIterable expression value =>
    "error evaluating expression '" ++ expression ++ "': return value (" ++ value ++
      ") was not iterable"
  | .validation value pattern =>
    "invalid input '" ++ value ++ "', please conform to pattern '" ++ pattern ++ "'"
  | .placeholder content reason =>
    "invalid parameter mapping '#\x7b" ++ content ++ "\x7d': " ++ reason.message
  | .inConditional test _ => "in <if test=\"" ++ test ++ "\">"
  | .inLoop collection index _ =>
    "in <foreach collection=\"" ++ collection ++ "\"> at index " ++ toString index
  | .inStatement id _ => "error rendering statement '" ++ id ++ "'"

end RenderError

end SqlTemplate
