import SqlTemplate.Decimal.Binary
import SqlTemplate.Value.Basic

/-!
# Numbers among the values

* `Number.compareFloats`: the total order of floats, negative zero below zero and every
  not-a-number at an end;
* `Number.compareIntFloat`, `Number.equalIntFloat`: a whole number against a float, exactly;
* `Value.asInt?`: the whole number that a value can be used as.
-/

namespace SqlTemplate

namespace Number

open Decimal

/-- The bits of a float as a number that grows with the float: a set sign bit turns the order of
    the others around. -/
def orderKey (x : Float) : Int :=
  let n : Nat := x.toBits.toNat
  if n < twoTo 63 then n else (twoTo 63 : Int) - 1 - n

/-- The total order of floats. -/
def compareFloats (x y : Float) : Ordering := compare (orderKey x) (orderKey y)

/-- The float that equals a whole number, if there is one. -/
def exactFloat? (n : Int) : Option Float :=
  let x := Float.ofInt n
  if (FloatForm.of x).toInt? = some n then some x else none

/-- How a whole number stands to a float. A number with a float of its own is compared as that
    float. -/
def compareIntFloat (n : Int) (x : Float) : Ordering :=
  match exactFloat? n with
  | some y => compareFloats y x
  | none =>
    match FloatForm.of x with
    | .notANumber => if 0 ≤ orderKey x then .lt else .gt
    | .infinite negative => if negative then .gt else .lt
    | .finite negative b => (b.compareInt negative n).swap

/-- Whether a whole number and a float are the same number. -/
def equalIntFloat (n : Int) (x : Float) : Bool :=
  match exactFloat? n with
  | some y => y == x
  | none => false

end Number

namespace Value

/-- The whole numbers of 64 bits with a sign. -/
def inInt64 (n : Int) : Bool := -(twoTo 63 : Int) ≤ n && n < twoTo 63

/-- The whole number that a float without a fraction is used as. One beyond the 64-bit numbers by
    no more than one counts as the largest of them. -/
def ofFloat? (x : Float) : Option Int :=
  match (Decimal.FloatForm.of x).toInt? with
  | some n => if inInt64 n then some n else if n = twoTo 63 then some (n - 1) else none
  | none => none

/-- The whole number that a boolean, a whole number or a float without a fraction stands for. -/
def asInt? : Value → Option Int
  | .bool b => some (if b then 1 else 0)
  | .int n => some n
  | .float x => ofFloat? x
  | _ => none

/-- The signed 64-bit number that a value can be used as. -/
def asInt64? (v : Value) : Option Int := v.asInt?.filter inInt64

/-- The unsigned 64-bit number that a value can be used as. -/
def asSize? (v : Value) : Option Nat :=
  match v.asInt? with
  | some n => if 0 ≤ n ∧ n < twoTo 64 then some n.toNat else none
  | none => none

end Value

end SqlTemplate
