import SqlTemplate.Text.Natural

/-!
# Binary fractions

The finite numbers of the 64-bit binary format, taken apart into whole numbers.

* `Binary`: a significand and a power of two;
* `FloatForm`: what the bits of a float say: not a number, an infinity, or a signed `Binary`;
* `Binary.compareInt`: the exact order between such a number and a whole number.
-/

namespace SqlTemplate.Decimal

/-! ## 1. Taking a float apart -/

/-- The number `significand * 2 ^ exponent`. -/
structure Binary where
  significand : Nat
  exponent : Int
  deriving DecidableEq, Repr

/-- What the bits of a float stand for. -/
inductive FloatForm where
  | notANumber
  | infinite (negative : Bool)
  | finite (negative : Bool) (magnitude : Binary)
  deriving DecidableEq, Repr

/-- Reads the sign, the eleven bits of the exponent and the fifty-two of the fraction. -/
def FloatForm.ofBits (bits : UInt64) : FloatForm :=
  let n := bits.toNat
  let negative := n / twoTo 63 == 1
  let exponent : Nat := n / twoTo 52 % twoTo 11
  let fraction : Nat := n % twoTo 52
  if exponent = 2047 then
    if fraction = 0 then .infinite negative else .notANumber
  else if exponent = 0 then .finite negative ⟨fraction, -1074⟩
  else .finite negative ⟨twoTo 52 + fraction, (exponent : Int) - 1075⟩

/-- What a float stands for. -/
def FloatForm.of (x : Float) : FloatForm := .ofBits x.toBits

/-! ## 2. Exact comparison with whole numbers -/

namespace Binary

/-- The numerator over a power of two: the value is `numerator / 2 ^ scale`. -/
def numerator (b : Binary) : Nat := b.significand * twoTo b.exponent.toNat

/-- The power of two under the value. -/
def scale (b : Binary) : Nat := (-b.exponent).toNat

/-- How the value, negated when `negative` says so, stands to the whole number `n`. -/
def compareInt (negative : Bool) (b : Binary) (n : Int) : Ordering :=
  let value : Int := if negative then -(b.numerator : Int) else b.numerator
  compare value (n * twoTo b.scale)

/-- The whole number that the value is, if it is one. -/
def toNat? (b : Binary) : Option Nat :=
  if b.numerator % twoTo b.scale = 0 then some (b.numerator / twoTo b.scale) else none

end Binary

/-- The whole number that a float is, if it is one. -/
def FloatForm.toInt? : FloatForm → Option Int
  | .finite negative b => b.toNat?.map fun n => if negative then -(n : Int) else n
  | _ => none

end SqlTemplate.Decimal
