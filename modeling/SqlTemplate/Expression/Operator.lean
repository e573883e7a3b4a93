import SqlTemplate.Decimal.Remainder
import SqlTemplate.Expression.Syntax
import SqlTemplate.RenderError
import SqlTemplate.Text.Pieces
import SqlTemplate.Value.Access
import SqlTemplate.Value.Display

/-!
# Operators

* `Value.isTrue`: the truth of a value inside an expression. It differs from `Value.holds`, by
  which a conditional goes: here whatever is empty is false;
* `Arithmetic.apply`, `negated`: arithmetic, exact on whole numbers of 128 bits with a sign;
* `Comparison.holds`: comparison and membership.
-/

namespace SqlTemplate

/-- Whether a value is true inside an expression. -/
def Value.isTrue : Value → Bool
  | .undefined => false
  | .null => false
  | .bool b => b
  | .int n => n != 0
  | .float x => x != 0.0
  | .str s => !s.toList.isEmpty
  | .bytes bs => !bs.isEmpty
  | .seq items => !items.isEmpty
  | .iter items => !items.isEmpty
  | .map entries => !entries.isEmpty
  | .object _ => true

namespace Expression

/-- The outcome of an operation. -/
abbrev Outcome := Except EvalFault

/-! ## 1. Numbers -/

/-- The whole numbers that arithmetic works on. -/
def inInt128 (n : Int) : Bool := -(twoTo 127 : Int) ≤ n && n < twoTo 127

/-- A whole number as the result of arithmetic. -/
def ofInt (n : Int) : Outcome Value :=
  if inInt128 n then .ok (.int n) else .error .invalidOperation

/-- Two operands of arithmetic. -/
inductive Operands where
  | ints (a b : Int)
  | floats (x y : Float)

/-- The number that an operand is as a float. -/
def float? : Value → Option Float
  | .bool b => some (if b then 1.0 else 0.0)
  | .int n => some (Float.ofInt n)
  | .float x => some x
  | _ => none

/-- The whole number that an operand is. -/
def int? : Value → Option Int
  | .bool b => some b.toNat
  | .int n => if inInt128 n then some n else none
  | _ => none

/-- Two values as operands: floats as soon as one of them is a float. -/
def operands? (a b : Value) : Option Operands :=
  match a, b with
  | .float x, b => (float? b).map (.floats x)
  | a, .float y => (float? a).map fun x => .floats x y
  | a, b => (int? a).bind fun m => (int? b).map (.ints m)

/-- Arithmetic on two numbers by one of two functions. -/
def onNumbers (ints : Int → Int → Outcome Value) (floats : Float → Float → Float) (a b : Value) :
    Outcome Value :=
  match operands? a b with
  | some (.ints m n) => ints m n
  | some (.floats x y) => .ok (.float (floats x y))
  | none => .error .invalidOperation

/-- The opposite of a number. -/
def negated : Value → Outcome Value
  | .int n => ofInt (-n)
  | .float x => .ok (.float (-x))
  | _ => .error .invalidOperation

/-- A power of whole numbers. An exponent that is too large for its base is not computed. -/
def intPower (m n : Int) : Outcome Value :=
  if n < 0 ∨ twoTo 32 ≤ n then .error .invalidOperation
  else if m.natAbs ≤ 1 then .ok (.int (m.pow (n.toNat % 2 + if n = 0 then 0 else 2)))
  else if 127 < n then .error .invalidOperation
  else ofInt (m.pow n.toNat)

/-! ## 2. Texts and sequences -/

/-- The elements of a sequence or an iterable. -/
def sequence? : Value → Option (List Value)
  | .seq items => some items
  | .iter items => some items
  | _ => none

/-- `count` copies of a list one after the other. -/
def repeated {α : Type} (count : Nat) (items : List α) : List α :=
  (List.replicate count items).flatten

/-- The sum of two values. Texts and sequences are joined. -/
def add (a b : Value) : Outcome Value :=
  match sequence? a, sequence? b with
  | some as, some bs => .ok (.iter (as ++ bs))
  | _, _ =>
    match a, b with
    | .str s, .str t => .ok (.str (s ++ t))
    | a, b => onNumbers (fun m n => ofInt (m + n)) (· + ·) a b

/-- A text several times over. -/
def repeatText (s : String) (times : Value) : Outcome Value :=
  match times.asSize? with
  | some count => .ok (.str (String.ofList (repeated count s.toList)))
  | none => .error .invalidOperation

/-- A sequence several times over. -/
def repeatSequence (items : List Value) (times : Value) : Outcome Value :=
  match times.asSize? with
  | some count => .ok (.iter (repeated count items))
  | none => .error .invalidOperation

/-- The product of two values. A text or a sequence is repeated. -/
def multiply (a b : Value) : Outcome Value :=
  match a.text?, b.text? with
  | some s, _ => repeatText s b
  | none, some t => repeatText t a
  | none, none =>
    match sequence? a, sequence? b with
    | some items, _ => repeatSequence items b
    | none, some items => repeatSequence items a
    | none, none => onNumbers (fun m n => ofInt (m * n)) (· * ·) a b

/-! ## 3. Arithmetic -/

/-- A division of whole numbers by `op`, unless the divisor is zero. -/
def dividing (op : Int → Int → Int) (m n : Int) : Outcome Value :=
  if n = 0 then .error .invalidOperation else ofInt (op m n)

/-- The quotient of two numbers, as a float. -/
def divide (a b : Value) : Outcome Value :=
  match float? a, float? b with
  | some x, some y => .ok (.float (x / y))
  | _, _ => .error .invalidOperation

/-- The remainder of two whole numbers. The least number has no quotient by minus one. -/
def intRemainder (m n : Int) : Outcome Value :=
  if n = -1 ∧ m = -(twoTo 127 : Int) then .error .invalidOperation else dividing Int.emod m n

/-- What an operator makes of two values. -/
def Arithmetic.apply : Arithmetic → Value → Value → Outcome Value
  | .add, a, b => Expression.add a b
  | .subtract, a, b => onNumbers (fun m n => ofInt (m - n)) (· - ·) a b
  | .concat, a, b => .ok (.str (a.display ++ b.display))
  | .multiply, a, b => Expression.multiply a b
  | .divide, a, b => Expression.divide a b
  | .floorDivide, a, b => onNumbers (dividing Int.ediv) Decimal.floorDivide a b
  | .remainder, a, b => onNumbers intRemainder Decimal.remainder a b
  | .power, a, b => onNumbers intPower Float.pow a b

/-! ## 4. Comparison -/

/-- Whether a value is found in a container: an element of a sequence, a key of a mapping or a
    part of a text. -/
def contains (container v : Value) : Outcome Bool :=
  match container.text? with
  | some s => .ok (Text.occursIn ((v.text?).getD v.display).toList s.toList)
  | none =>
    match container with
    | .undefined => .ok false
    | .seq items => .ok (items.any (·.equal v))
    | .iter items => .ok (items.any (·.equal v))
    | .map entries => .ok (Value.find? v entries).isSome
    | .object _ => .ok false
    | _ => .error .invalidOperation

/-- Whether two values compare as the operator says. -/
def Comparison.holds : Comparison → Value → Value → Outcome Bool
  | .equal, a, b => .ok (a.equal b)
  | .different, a, b => .ok (!a.equal b)
  | .less, a, b => .ok (a.compare b == .lt)
  | .atMost, a, b => .ok (a.compare b != .gt)
  | .greater, a, b => .ok (a.compare b == .gt)
  | .atLeast, a, b => .ok (a.compare b != .lt)
  | .member, a, b => contains b a
  | .notMember, a, b => (contains b a).map (!·)

end Expression

end SqlTemplate
