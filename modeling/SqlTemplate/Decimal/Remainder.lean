import SqlTemplate.Decimal.Binary

/-!
# Remainders of floats

* `Binary.toFloat`: the float of a binary fraction;
* `remainder`: the exact remainder of a division that rounds toward zero;
* `floorDivide`: the whole quotient whose remainder is not negative.
-/

namespace SqlTemplate.Decimal

/-! ## 1. Putting a float together -/

namespace Binary

/-- The same number with fifty-three bits, or fewer where the exponent is the least. Further bits
    are cut off. -/
def normalized (b : Binary) : Binary :=
  let exponent := max (b.exponent + Nat.log2 b.significand - 52) (-1074)
  let shift := exponent - b.exponent
  ⟨b.significand * twoTo (-shift).toNat / twoTo shift.toNat, exponent⟩

/-- The bits of a float that is not negative. -/
def bits (b : Binary) : Nat :=
  let n := b.normalized
  if n.significand < twoTo 52 then n.significand
  else (n.exponent + 1075).toNat * twoTo 52 + (n.significand - twoTo 52)

/-- The float of a binary fraction, negated when `negative` says so. -/
def toFloat (negative : Bool) (b : Binary) : Float :=
  Float.ofBits (UInt64.ofNat (b.bits + if negative then twoTo 63 else 0))

/-- What is left of the first number once the second, which is not zero, has been taken from it as
    often as possible. -/
def remainder (a b : Binary) : Binary :=
  let exponent := min a.exponent b.exponent
  let lift (c : Binary) : Nat := c.significand * twoTo (c.exponent - exponent).toNat
  ⟨lift a % lift b, exponent⟩

end Binary

/-! ## 2. Division -/

/-- What is no number. -/
def notANumber : Float := 0.0 / 0.0

/-- The remainder of a division that rounds toward zero. It has the sign of the first operand. -/
def remainder (x y : Float) : Float :=
  match FloatForm.of x, FloatForm.of y with
  | .finite negative a, .finite _ b =>
    if b.significand = 0 then notANumber else (a.remainder b).toFloat negative
  | .finite _ _, .infinite _ => x
  | _, _ => notANumber

/-- The next whole number toward zero. -/
def truncate (x : Float) : Float := if x < 0.0 then x.ceil else x.floor

/-- The whole quotient whose remainder is not negative. -/
def floorDivide (x y : Float) : Float :=
  let q := truncate (x / y)
  if remainder x y < 0.0 then if 0.0 < y then q - 1.0 else q + 1.0 else q

end SqlTemplate.Decimal
