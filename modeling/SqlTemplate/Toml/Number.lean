import SqlTemplate.Text.Natural
import SqlTemplate.Text.Pieces

/-!
# Numbers and dates of TOML documents

* `isNumber`: whether a word is a whole number of 64 bits or a float;
* `isMoment`: whether a word is a date, a time of day or both.
-/

namespace SqlTemplate.Toml

/-! ## 1. Digits -/

/-- Whether a text is made of characters in `p`, with at most one underscore between any two. -/
def isRun (p : Char → Bool) : List Char → Bool
  | [] => false
  | [c] => p c
  | c :: '_' :: cs => p c && isRun p cs
  | c :: cs => p c && isRun p cs

/-- The digits without underscores. -/
def digitsOf (cs : List Char) : List Char := cs.filter (· != '_')

/-- The value of digits to a base. -/
def valueOf (base : Nat) (cs : List Char) : Nat :=
  (digitsOf cs).foldl (fun n c => base * n + (Text.hexDigit? c).getD 0) 0

/-- Whether a character is a digit to a base. -/
def isDigitOf (base : Nat) (c : Char) : Bool := (Text.hexDigit? c).any (· < base)

/-- A text without its sign, and whether the sign is a minus. -/
def splitSign : List Char → Bool × List Char
  | '-' :: cs => (true, cs)
  | '+' :: cs => (false, cs)
  | cs => (false, cs)

/-! ## 2. Numbers -/

/-- Whether a text is a run of decimal digits without leading zeros. -/
def isDecimal (cs : List Char) : Bool :=
  cs == ['0'] || (isRun Char.isDigit cs && cs.head? != some '0')

/-- Whether a word is a whole number to the base of its mark. -/
def isBased (base : Nat) (cs : List Char) : Bool :=
  isRun (isDigitOf base) cs && valueOf base cs < twoTo 63

/-- Whether a word is a whole number of 64 bits with a sign. -/
def isInteger : List Char → Bool
  | '0' :: 'x' :: cs => isBased 16 cs
  | '0' :: 'o' :: cs => isBased 8 cs
  | '0' :: 'b' :: cs => isBased 2 cs
  | cs =>
    let (negative, digits) := splitSign cs
    isDecimal digits && valueOf 10 digits < twoTo 63 + (if negative then 1 else 0)

/-- Whether a text is an exponent, behind its mark. -/
def isExponent (cs : List Char) : Bool := isRun Char.isDigit (splitSign cs).2

/-- Whether a character marks an exponent. -/
def isExponentMark (c : Char) : Bool := c == 'e' || c == 'E'

/-- Whether a text without a sign is a number with a decimal point, an exponent or both. -/
def isFloatBody (cs : List Char) : Bool :=
  let mantissa := cs.takeWhile (!isExponentMark ·)
  let rest := cs.dropWhile (!isExponentMark ·)
  let exponentFits := rest.isEmpty || isExponent rest.tail
  match Text.splitOnce ['.'] mantissa with
  | some (whole, places) => isDecimal whole && isRun Char.isDigit places && exponentFits
  | none => isDecimal mantissa && !rest.isEmpty && exponentFits

/-- Whether a word is a float. -/
def isFloat (cs : List Char) : Bool :=
  let body := (splitSign cs).2
  body == ['i', 'n', 'f'] || body == ['n', 'a', 'n'] || isFloatBody body

/-- Whether a word is a number. -/
def isNumber (cs : List Char) : Bool := isInteger cs || isFloat cs

/-! ## 3. Dates and times -/

/-- The number of exactly `count` digits at the front of a text, and what follows. -/
def fixedDigits? (count : Nat) (cs : List Char) : Option (Nat × List Char) :=
  let digits := cs.take count
  if digits.length = count then (Text.digitsValue? digits).map fun n => (n, cs.drop count)
  else none

/-- The number of days of a month. -/
def daysOf (year month : Nat) : Nat :=
  if month = 2 then
    if year % 4 = 0 ∧ (year % 100 ≠ 0 ∨ year % 400 = 0) then 29 else 28
  else if month = 4 ∨ month = 6 ∨ month = 9 ∨ month = 11 then 30
  else 31

/-- What follows a date at the front of a text. -/
def afterDate? (cs : List Char) : Option (List Char) := do
  let (year, cs) ← fixedDigits? 4 cs
  let cs ← ['-'].isPrefixOf? cs
  let (month, cs) ← fixedDigits? 2 cs
  let cs ← ['-'].isPrefixOf? cs
  let (day, cs) ← fixedDigits? 2 cs
  if 1 ≤ month ∧ month ≤ 12 ∧ 1 ≤ day ∧ day ≤ daysOf year month then some cs else none

/-- What follows hours and minutes at the front of a text. -/
def afterMinutes? (cs : List Char) : Option (List Char) := do
  let (hour, cs) ← fixedDigits? 2 cs
  let cs ← [':'].isPrefixOf? cs
  let (minute, cs) ← fixedDigits? 2 cs
  if hour < 24 ∧ minute < 60 then some cs else none

/-- What follows a time of day at the front of a text. -/
def afterTime? (cs : List Char) : Option (List Char) := do
  let cs ← afterMinutes? cs
  let cs ← [':'].isPrefixOf? cs
  let (second, cs) ← fixedDigits? 2 cs
  if 60 < second then none
  else
    match cs with
    | '.' :: c :: cs => if c.isDigit then some (cs.dropWhile Char.isDigit) else none
    | cs => some cs

/-- Whether a text is an offset from universal time, or nothing. -/
def isOffset : List Char → Bool
  | [] => true
  | 'Z' :: cs => cs.isEmpty
  | 'z' :: cs => cs.isEmpty
  | '+' :: cs => afterMinutes? cs == some []
  | '-' :: cs => afterMinutes? cs == some []
  | _ => false

/-- Whether a character stands between a date and a time. -/
def isDateMark (c : Char) : Bool := c == 'T' || c == 't' || c == ' '

/-- Whether a word is a date, a time of day or both. -/
def isMoment (cs : List Char) : Bool :=
  match afterDate? cs with
  | some [] => true
  | some (c :: cs) => isDateMark c && (afterTime? cs).any isOffset
  | none => afterTime? cs == some []

end SqlTemplate.Toml
