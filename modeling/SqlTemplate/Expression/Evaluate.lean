import SqlTemplate.Engine
import SqlTemplate.Expression.Filter
import SqlTemplate.Expression.Parser

/-!
# Evaluation of expressions

* `Global`: what a name that belongs to the language stands for;
* `Globals`: the names that belong to the language. All other names are looked up in the bindings;
* `Expression.evaluate`: the value of an expression;
* `Globals.engine`: the engine of the language.
-/

namespace SqlTemplate

namespace Expression

/-! ## 1. Names -/

/-- What a name stands for. -/
inductive Global where
  | value (v : Value)
  /-- The function that counts up. -/
  | range

/-- The names that the bindings cannot change. -/
structure Globals where
  names : List (String × Global)

namespace Globals

/-- A function that expressions name but do not call. -/
def closed : Global := .value (.object [])

/-- The names of the language itself. -/
def standard : Globals where
  names := [("null", .value .null), ("range", .range), ("dict", closed), ("namespace", closed),
    ("debug", closed)]

/-- What a name of the language stands for. -/
def get? (g : Globals) (name : String) : Option Global := g.names.lookup name

/-- Adds a name to the language, or changes what it stands for. -/
def add (g : Globals) (name : String) (v : Value) : Globals where
  names := (name, .value v) :: g.names

/-- Changes what a name stands for if it belongs to the language. -/
def redefine (g : Globals) (name : String) (v : Value) : Globals :=
  if (g.get? name).isSome then g.add name v else g

/-- What a name stands for in an expression. A name that stands for nothing is null. -/
def resolve (g : Globals) (bindings : Bindings) (name : String) : Global :=
  (g.get? name).getD (.value ((bindings.get? name).getD .null))

end Globals

/-! ## 2. Access and calls -/

/-- The value of a name. -/
def Global.asValue : Global → Value
  | .value v => v
  | .range => .object []

/-- What is read from a value. Nothing can be read from the undefined value; reading what another
    value does not have gives it. -/
def reading (v : Value) (found : Option Value) : Outcome Value :=
  match found with
  | some w => .ok w
  | none => if v.isUndefined then .error .undefinedError else .ok .undefined

/-- The number of a bound of a range. -/
def rangeBound (v : Value) : Outcome Nat :=
  match v.asInt? with
  | some n => if 0 ≤ n ∧ n < twoTo 32 then .ok n.toNat else .error .invalidOperation
  | none => .error .invalidOperation

/-- A bound of a range that may be left out. -/
def rangeBound? (args : List Value) : Outcome (Option Nat) :=
  match given? args with
  | some v => (rangeBound v).map some
  | none => .ok none

/-- The longest range. -/
def rangeLimit : Nat := 100000

/-- The numbers from `start` up to `stop`, which does not belong to them, in steps of `step`. -/
def rangeOf (start stop step : Nat) : Outcome Value :=
  let count := (stop - start + step - 1) / step
  if step = 0 ∨ rangeLimit < count then .error .invalidOperation
  else .ok (.iter ((List.range count).map fun i => .int ((start + i * step : Nat) : Int)))

/-- A call of the function that counts up: a stop, or a start, a stop and possibly a step. -/
def callRange (args : List Value) : Outcome Value :=
  match args with
  | [] => .error .missingArgument
  | first :: rest => do
    let low ← rangeBound first
    let high ← rangeBound? rest
    let step ← rangeBound? rest.tail
    atMost 3 args
      (match high with
        | some high => rangeOf low high (step.getD 1)
        | none => rangeOf 0 low (step.getD 1))

/-- A call of what a name stands for. -/
def Global.call (args : List Value) : Global → Outcome Value
  | .range => callRange args
  | .value _ => .error .invalidOperation

/-- The fault of a call of the attribute `s` of a value: nothing that a value holds is a
    function. -/
def methodFault (v : Value) (s : String) : EvalFault :=
  if (v.attr? s).isSome then .invalidOperation else .unknownMethod

/-! ## 3. Evaluation -/

mutual

/-- The value of an expression. -/
def evaluate (lookup : String → Global) : Expression → Outcome Value
  | .constant v => .ok v
  | .name s => .ok (lookup s).asValue
  | .list items => (evaluateAll lookup items).map .seq
  | .mapping entries => (evaluateEntries lookup entries).map Value.ofEntries
  | .attribute e s => do
    let v ← evaluate lookup e
    reading v (v.attr? s)
  | .item e key => do
    let v ← evaluate lookup e
    let k ← evaluate lookup key
    reading v (v.item? k)
  | .call (.name s) args => do
    let vs ← evaluateAll lookup args
    (lookup s).call vs
  | .call (.attribute e s) args => do
    let v ← evaluate lookup e
    let _ ← evaluateAll lookup args
    throw (methodFault v s)
  | .call callee args => do
    let _ ← evaluate lookup callee
    let _ ← evaluateAll lookup args
    throw .invalidOperation
  | .filter s e args => do
    let v ← evaluate lookup e
    let vs ← evaluateAll lookup args
    match Filter.ofName? s with
    | some f => f.apply v vs
    | none => throw .unknownFilter
  | .test s e args => do
    let v ← evaluate lookup e
    let vs ← evaluateAll lookup args
    match Test.ofName? s with
    | some t => (t.holds v vs).map .bool
    | none => throw .unknownTest
  | .negate e => do
    let v ← evaluate lookup e
    negated v
  | .arithmetic op a b => do
    let v ← evaluate lookup a
    let w ← evaluate lookup b
    op.apply v w
  | .comparison first links => do
    let v ← evaluate lookup first
    (evaluateLinks lookup v links).map .bool
  | .not e => do
    let v ← evaluate lookup e
    return .bool !v.isTrue
  | .and a b => do
    let v ← evaluate lookup a
    if v.isTrue then evaluate lookup b else return v
  | .or a b => do
    let v ← evaluate lookup a
    if v.isTrue then return v else evaluate lookup b
  | .choice condition yes no => do
    let v ← evaluate lookup condition
    if v.isTrue then evaluate lookup yes else evaluate lookup no

/-- The values of expressions, in order. -/
def evaluateAll (lookup : String → Global) : List Expression → Outcome (List Value)
  | [] => .ok []
  | e :: rest => do
    let v ← evaluate lookup e
    let vs ← evaluateAll lookup rest
    return v :: vs

/-- The values of keys and values, in order. -/
def evaluateEntries (lookup : String → Global) :
    List (Expression × Expression) → Outcome (List (Value × Value))
  | [] => .ok []
  | (key, e) :: rest => do
    let k ← evaluate lookup key
    let v ← evaluate lookup e
    let others ← evaluateEntries lookup rest
    return (k, v) :: others

/-- Whether a chain of comparisons holds behind the operand `v`. Operands behind the first link
    that does not hold are not evaluated. -/
def evaluateLinks (lookup : String → Global) (v : Value) :
    List (Comparison × Expression) → Outcome Bool
  | [] => .ok true
  | (op, e) :: rest => do
    let w ← evaluate lookup e
    let passed ← op.holds v w
    if passed then evaluateLinks lookup w rest else return false

end

/-- The value of a written expression. -/
def run (globals : Globals) (text : String) (bindings : Bindings) : Outcome Value := do
  let e ← parse text
  evaluate (globals.resolve bindings) e

/-- The engine of the language with the given names. -/
def Globals.engine (globals : Globals) : Engine where
  evaluate text bindings := (run globals text bindings).mapError (.evaluation text)

end Expression

/-- The engine of the language with its own names only. -/
def Engine.standard : Engine := Expression.Globals.standard.engine

end SqlTemplate
