/-!
# Natural numbers in text

* `twoTo`: the bounds of numbers of so many bits;
* `digitsValue?`: the value of a run of decimal digits;
* `readBounded?`: a number with an optional plus sign that stays below a bound, such as an
  index of 64 bits or a scale of 32 bits;
* `hexValue?`: the value of hexadecimal digits.
-/

namespace SqlTemplate

/-- The number of values of `n` bits. -/
def twoTo (n : Nat) : Nat := Nat.pow 2 n

namespace Text

/-- The number that the digits stand for, most significant first, on top of `value`; `none` as
    soon as a character is no digit. -/
def digitsValueFrom? (value : Nat) : List Char → Option Nat
  | [] => some value
  | c :: cs => if c.isDigit then digitsValueFrom? (10 * value + (c.toNat - '0'.toNat)) cs else none

/-- The value of a non-empty run of decimal digits. -/
def digitsValue? (cs : List Char) : Option Nat :=
  if cs.isEmpty then none else digitsValueFrom? 0 cs

/-- The text without one leading plus sign. -/
def dropPlus : List Char → List Char
  | '+' :: cs => cs
  | cs => cs

/-- Reads a number below `bound`. A plus sign may stand in front of the digits. -/
def readBounded? (bound : Nat) (cs : List Char) : Option Nat :=
  (digitsValue? (dropPlus cs)).filter (· < bound)

/-- The value of a hexadecimal digit. -/
def hexDigit? (c : Char) : Option Nat :=
  if c.isDigit then some (c.toNat - '0'.toNat)
  else if 'a' ≤ c ∧ c ≤ 'f' then some (c.toNat - 'a'.toNat + 10)
  else if 'A' ≤ c ∧ c ≤ 'F' then some (c.toNat - 'A'.toNat + 10)
  else none

/-- The number that hexadecimal digits stand for, on top of `value`. -/
def hexValueFrom? (value : Nat) : List Char → Option Nat
  | [] => some value
  | c :: cs => (hexDigit? c).bind fun d => hexValueFrom? (16 * value + d) cs

/-- The number that hexadecimal digits stand for. -/
def hexValue? (cs : List Char) : Option Nat := hexValueFrom? 0 cs

end Text

end SqlTemplate
