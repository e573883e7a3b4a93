import SqlTemplate.Expression.Operator
import SqlTemplate.Sql
import SqlTemplate.Text.Blank
import SqlTemplate.Text.CaseTable

/-!
# Filters and tests

* `Filter`: the filters by name, and `Filter.apply`, what a filter makes of a value;
* `Test`: the tests by name, and `Test.holds`, whether a value passes.
-/

namespace SqlTemplate.Expression

/-! ## 1. Arguments -/

/-- An argument that may be left out. A missing value leaves it out too. -/
def given? : List Value → Option Value
  | v :: _ => if v.isAbsent then none else some v
  | [] => none

/-- Refuses arguments beyond the first `count`. -/
def atMost {α : Type} (count : Nat) (args : List Value) (result : Outcome α) : Outcome α :=
  if count < args.length then .error .tooManyArguments else result

/-! ## 2. Filters -/

/-- A filter. -/
inductive Filter where
  | sqlQuote
  | identifier
  | escapeLike
  | inClause
  | length
  | upper
  | lower
  | trim
  | join
  | orDefault
  | first
  | last
  | list
  deriving DecidableEq, Repr

namespace Filter

/-- The filter of a name. -/
def ofName? : String → Option Filter
  | "sqlquote" => some .sqlQuote
  | "identifier" => some .identifier
  | "escape_like" => some .escapeLike
  | "inclause" => some .inClause
  | "length" => some .length
  | "count" => some .length
  | "upper" => some .upper
  | "lower" => some .lower
  | "trim" => some .trim
  | "join" => some .join
  | "default" => some .orDefault
  | "d" => some .orDefault
  | "first" => some .first
  | "last" => some .last
  | "list" => some .list
  | _ => none

/-- A value as it is, or the fault of an operation on the wrong kind of value. -/
def orInvalid {α : Type} : Option α → Outcome α
  | some a => .ok a
  | none => .error .invalidOperation

/-- The text without the given characters at its ends, or without blanks. -/
def trimmed (chars : Option String) (s : String) : String :=
  match chars with
  | some chars => String.ofList (Text.trimBy (chars.toList.contains ·) s.toList)
  | none => Text.trimText s

/-- Texts one after the other, on top of `done`. The separator stands in front of each text unless
    nothing precedes it. -/
def joined (separator done : String) : List String → String
  | [] => done
  | s :: rest =>
    joined separator ((if done.toList.isEmpty then s else done ++ separator ++ s)) rest

/-- The text of a joined element. -/
def joinedText (v : Value) : String := (v.text?).getD v.display

/-- What takes the place of a value that is undefined or, if `lax`, not true. -/
def withDefault (v : Value) (other : Option Value) (lax : Bool) : Value :=
  if v.isUndefined || (lax && !v.isTrue) then other.getD (.str "") else v

/-- The second argument of a default: whether every value that is not true is replaced. -/
def laxity : List Value → Outcome Bool
  | _ :: v :: _ =>
    match v with
    | .bool b => .ok b
    | v => if v.isAbsent then .ok false else .error .invalidOperation
  | _ => .ok false

/-- The first element of a value: the first character of a text, the first key of a mapping. -/
def firstOf (v : Value) : Outcome Value :=
  match v.text? with
  | some s => .ok ((s.toList.head?.map fun c => .str (String.singleton c)).getD .undefined)
  | none =>
    match v with
    | .seq items => .ok (items.head?.getD .undefined)
    | .iter items => .ok (items.head?.getD .undefined)
    | .map entries => .ok ((entries.head?.map (·.1)).getD .undefined)
    | _ => .error .invalidOperation

/-- The last element of a value. A mapping has none. -/
def lastOf (v : Value) : Outcome Value :=
  match v.text? with
  | some s => .ok ((s.toList.getLast?.map fun c => .str (String.singleton c)).getD .undefined)
  | none => (orInvalid (sequence? v)).map fun items => items.getLast?.getD .undefined

/-- What a filter makes of a value. -/
def apply (filter : Filter) (v : Value) (args : List Value) : Outcome Value :=
  match filter with
  | .sqlQuote => atMost 0 args (.ok (.str (Sql.quote v.display)))
  | .identifier => atMost 0 args (.ok (.str (Sql.identifier v.display)))
  | .escapeLike => atMost 0 args (.ok (.str (Sql.escapeLike v.display)))
  | .inClause =>
    (orInvalid (sequence? v)).bind fun items => atMost 0 args (.ok (.str (Sql.inList items)))
  | .length => atMost 0 args ((orInvalid v.size?).map fun n => .int n)
  | .upper => atMost 0 args (.ok (.str (Text.upper v.display)))
  | .lower => atMost 0 args (.ok (.str (Text.lower v.display)))
  | .trim => atMost 1 args (.ok (.str (trimmed ((given? args).map Value.display) v.display)))
  | .join =>
    let separator := ((given? args).map Value.display).getD ""
    atMost 1 args ((orInvalid v.elements?).map fun items =>
      .str (joined separator "" (items.map joinedText)))
  | .orDefault =>
    (laxity args).bind fun lax => atMost 2 args (.ok (withDefault v (given? args) lax))
  | .first => atMost 0 args (firstOf v)
  | .last => atMost 0 args (lastOf v)
  | .list => atMost 0 args ((orInvalid v.elements?).map .seq)

end Filter

/-! ## 3. Tests -/

/-- A test. -/
inductive Test where
  | defined
  | undefined
  | null
  | string
  | number
  | integer
  | float
  | boolean
  | sequence
  | mapping
  | odd
  | even
  | member
  deriving DecidableEq, Repr

namespace Test

/-- The test of a name. -/
def ofName? : String → Option Test
  | "defined" => some .defined
  | "undefined" => some .undefined
  | "none" => some .null
  | "string" => some .string
  | "number" => some .number
  | "integer" => some .integer
  | "float" => some .float
  | "boolean" => some .boolean
  | "sequence" => some .sequence
  | "mapping" => some .mapping
  | "odd" => some .odd
  | "even" => some .even
  | "in" => some .member
  | _ => none

/-- Whether a value is a whole number. -/
def isInteger : Value → Bool
  | .int _ => true
  | _ => false

/-- Whether a value is a float. -/
def isFloat : Value → Bool
  | .float _ => true
  | _ => false

/-- Whether a value passes a test without arguments. -/
def passes (v : Value) : Test → Bool
  | .defined => !v.isUndefined
  | .undefined => v.isUndefined
  | .null => v.kind == .null
  | .string => v.kind == .str
  | .number => v.kind == .number
  | .integer => isInteger v
  | .float => isFloat v
  | .boolean => v.kind == .bool
  | .sequence => v.kind == .seq
  | .mapping => v.kind == .map
  | .odd => v.asInt?.any fun n => n % 2 != 0
  | .even => v.asInt?.any fun n => n % 2 == 0
  | .member => false

/-- Whether a value is found in a container. What is no container contains nothing. -/
def isMember (v container : Value) : Bool :=
  match contains container v with
  | .ok found => found
  | .error _ => false

/-- Whether a value passes a test. -/
def holds (test : Test) (v : Value) (args : List Value) : Outcome Bool :=
  match test, args with
  | .member, [] => .error .missingArgument
  | .member, container :: _ => atMost 1 args (.ok (isMember v container))
  | test, args => atMost 0 args (.ok (passes v test))

end Test

end SqlTemplate.Expression
