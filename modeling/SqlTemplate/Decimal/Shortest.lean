import SqlTemplate.Decimal.Binary

/-!
# Shortest decimal digits

The text of a float holds the fewest digits that still read back as the same float.

* `Neighbourhood`: the interval of numbers that round to a given binary fraction;
* `shortest`: the point of the coarsest decimal grid inside that interval, the nearer one when two
  points of the grid lie inside;
* `fixedText` and `compactText`: the two ways in which the digits are set.
-/

namespace SqlTemplate.Decimal

/-! ## 1. The numbers that round to a binary fraction -/

/-- The numbers between `low / 2 ^ scale` and `high / 2 ^ scale`, all of which round to
    `value / 2 ^ scale`. The ends belong to the interval when `closed` says so. -/
structure Neighbourhood where
  low : Nat
  value : Nat
  high : Nat
  scale : Nat
  closed : Bool
  deriving Repr

/-- The smallest significand of a number with a full exponent. -/
def hiddenBit : Nat := twoTo 52

/-- The neighbourhood of a binary fraction. It reaches half a unit up and half a unit down, a
    quarter down from a power of two, below which the numbers stand twice as close. -/
def Binary.neighbourhood (b : Binary) : Neighbourhood :=
  let below := if b.significand = hiddenBit ∧ -1074 < b.exponent then 1 else 2
  let unit := twoTo (b.exponent - 2).toNat
  { low := (4 * b.significand - below) * unit
    value := 4 * b.significand * unit
    high := (4 * b.significand + 2) * unit
    scale := (2 - b.exponent).toNat
    closed := b.significand % 2 == 0 }

/-! ## 2. The coarsest grid with a point inside -/

/-- The number `digits * 10 ^ exponent`. -/
structure Digits where
  digits : Nat
  exponent : Int
  deriving DecidableEq, Repr

/-- The number of values of `n` decimal digits. -/
def tenTo (n : Nat) : Nat := Nat.pow 10 n

namespace Neighbourhood

/-- Both sides of a comparison with `d * 10 ^ k`, brought to whole numbers: the multiple of ten
    powers for the grid point and the factor for an end of the interval. -/
def gridSides (v : Neighbourhood) (d : Nat) (k : Int) (stop : Nat) : Nat × Nat :=
  (d * tenTo k.toNat * twoTo v.scale, stop * tenTo (-k).toNat)

/-- Whether `d * 10 ^ k` lies in the interval. -/
def holds (v : Neighbourhood) (d : Nat) (k : Int) : Bool :=
  let (point, low) := v.gridSides d k v.low
  let (_, high) := v.gridSides d k v.high
  if v.closed then low ≤ point && point ≤ high else low < point && point < high

/-- The last multiple of `10 ^ k` that is not above the value. -/
def floorOn (v : Neighbourhood) (k : Int) : Nat :=
  v.value * tenTo (-k).toNat / (tenTo k.toNat * twoTo v.scale)

/-- The point of the grid of `10 ^ k` in the interval that is nearest to the value. The upper one
    of two equally near points is taken. -/
def nearestOn? (v : Neighbourhood) (k : Int) : Option Nat :=
  let d := v.floorOn k
  match v.holds d k, v.holds (d + 1) k with
  | false, false => none
  | true, false => some d
  | false, true => some (d + 1)
  | true, true =>
    let (down, value) := v.gridSides d k v.value
    let (up, _) := v.gridSides (d + 1) k v.value
    if value - down < up - value then some d else some (d + 1)

/-- Tries the grids of `10 ^ k`, `10 ^ (k - 1)` and so on. -/
def coarsestFrom (v : Neighbourhood) : Nat → Int → Digits
  | 0, k => ⟨v.floorOn k, k⟩
  | fuel + 1, k =>
    match v.nearestOn? k with
    | some d => ⟨d, k⟩
    | none => v.coarsestFrom fuel (k - 1)

end Neighbourhood

/-- A power of ten above the binary fraction: `log10 2` is a little below `30103 / 100000`. -/
def Binary.aboveExponent (b : Binary) : Int :=
  ((Nat.log2 b.significand : Int) + b.exponent + 1) * 30103 / 100000 + 2

/-- The fewest digits that read back as the binary fraction, and of those the nearest. -/
def Binary.shortest (b : Binary) : Digits :=
  if b.significand = 0 then ⟨0, 0⟩ else b.neighbourhood.coarsestFrom 40 b.aboveExponent

/-! ## 3. Setting the digits -/

namespace Digits

/-- The decimal digits, most significant first. -/
def text (d : Digits) : List Char := Nat.toDigits 10 d.digits

/-- The digits around a decimal point, with a zero where one side would be empty. -/
def fixed (d : Digits) : List Char :=
  let cs := d.text
  if 0 ≤ d.exponent then cs ++ List.replicate d.exponent.toNat '0' ++ ['.', '0']
  else
    let places := (-d.exponent).toNat
    if places < cs.length then
      cs.take (cs.length - places) ++ '.' :: cs.drop (cs.length - places)
    else '0' :: '.' :: (List.replicate (places - cs.length) '0' ++ cs)

/-- The power of ten of the first digit. -/
def order (d : Digits) : Int := d.exponent + d.text.length - 1

/-- One digit, a point and the other digits if there are any, and the power of ten. -/
def scientific (d : Digits) : List Char :=
  let mantissa :=
    match d.text with
    | [] => []
    | [c] => [c]
    | c :: cs => c :: '.' :: cs
  mantissa ++ 'e' :: (toString d.order).toList

end Digits

/-- Sets the digits of a finite float by `set`, with a minus sign where one belongs. -/
def textBy (set : Digits → List Char) : FloatForm → List Char
  | .notANumber => ['N', 'a', 'N']
  | .infinite negative => if negative then ['-', 'i', 'n', 'f'] else ['i', 'n', 'f']
  | .finite negative b => if negative then '-' :: set b.shortest else set b.shortest

/-- The text of a float without any exponent. -/
def fixedText (x : Float) : String := String.ofList (textBy Digits.fixed (.of x))

/-- Whether the digits stand for a number that is set with an exponent in a compact text: one of
    at least `10 ^ 16`, or one below `10 ^ -4` that is not zero. -/
def Digits.wantsExponent (d : Digits) : Bool := d.digits != 0 && (16 ≤ d.order || d.order < -4)

/-- The text of a float in which very large and very small numbers get an exponent. -/
def compactText (x : Float) : String :=
  String.ofList (textBy (fun d => if d.wantsExponent then d.scientific else d.fixed) (.of x))

end SqlTemplate.Decimal
