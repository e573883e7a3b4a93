import SqlTemplate.RenderError
import SqlTemplate.Text.Natural

/-!
# Tokens of expressions

* `Token`: the units that an expression is written in;
* `Token.ofText`: the tokens of an expression. Text that is no token ends the list with its fault,
  so that a fault counts only once everything in front of it has been read.
-/

namespace SqlTemplate.Expression

/-- Operators and punctuation. -/
inductive Sign where
  | plus
  | minus
  | star
  | slash
  | doubleSlash
  | percent
  | doubleStar
  | tilde
  | bar
  | equals
  | differs
  | less
  | atMost
  | greater
  | atLeast
  | assign
  | dot
  | comma
  | colon
  | openParen
  | closeParen
  | openBracket
  | closeBracket
  | openBrace
  | closeBrace
  deriving DecidableEq, Repr

/-- A unit of a written expression. -/
inductive Token where
  | name (s : String)
  | text (s : String)
  | int (n : Nat)
  | float (x : Float)
  | sign (s : Sign)
  /-- Text that is no token. -/
  | invalid (fault : EvalFault)

namespace Token

/-! ## 1. Characters -/

/-- The blanks between tokens. -/
def isSpace (c : Char) : Bool :=
  c == ' ' || c == '\t' || c == '\n' || c == '\r' || c.toNat == 0x0C

/-- Whether a name can begin with the character. Names are ASCII. -/
def startsName (c : Char) : Bool := c.isAlpha || c == '_'

/-- Whether a name can go on with the character. -/
def continuesName (c : Char) : Bool := c.isAlphanum || c == '_'

/-! ## 2. Strings -/

/-- The text up to the next unescaped quotation mark `mark`, escapes as written, and what follows
    the mark. -/
def upToQuote? (mark : Char) : List Char → Option (List Char × List Char)
  | [] => none
  | '\\' :: c :: cs => (upToQuote? mark cs).map fun (inner, rest) => ('\\' :: c :: inner, rest)
  | c :: cs =>
    if c = mark then some ([], cs)
    else (upToQuote? mark cs).map fun (inner, rest) => (c :: inner, rest)

/-- The number of four hexadecimal places. A plus sign may take the first one. -/
def hexUnit? (a b c d : Char) : Option Nat := Text.hexValue? (Text.dropPlus [a, b, c, d])

/-- The character of a number that is no half of a pair. -/
def unitChar? (n : Nat) : Option Char :=
  if n < 0xD800 ∨ 0xDFFF < n then some (Char.ofNat n) else none

/-- The character of a pair of halves. -/
def pairChar? (high low : Nat) : Option Char :=
  if 0xD800 ≤ high ∧ high ≤ 0xDBFF ∧ 0xDC00 ≤ low ∧ low ≤ 0xDFFF then
    some (Char.ofNat (0x10000 + (high - 0xD800) * 0x400 + (low - 0xDC00)))
  else none

/-- The character that a letter behind a backslash stands for. -/
def escaped? : Char → Option Char
  | '"' => some '"'
  | '\\' => some '\\'
  | '/' => some '/'
  | '\'' => some '\''
  | 'b' => some (Char.ofNat 0x08)
  | 'f' => some (Char.ofNat 0x0C)
  | 'n' => some '\n'
  | 'r' => some '\r'
  | 't' => some '\t'
  | _ => none

/-- The text of a string whose escapes are still written. A character beyond sixteen bits is
    written as a pair of escapes. -/
def unescape? : List Char → Option (List Char)
  | [] => some []
  | '\\' :: 'u' :: a :: b :: c :: d :: '\\' :: 'u' :: a' :: b' :: c' :: d' :: cs =>
    (hexUnit? a b c d).bind fun n =>
      match unitChar? n with
      | some first =>
        (unescape? ('\\' :: 'u' :: a' :: b' :: c' :: d' :: cs)).map (first :: ·)
      | none =>
        (hexUnit? a' b' c' d').bind fun n' =>
          (pairChar? n n').bind fun first => (unescape? cs).map (first :: ·)
  | '\\' :: 'u' :: a :: b :: c :: d :: cs =>
    ((hexUnit? a b c d).bind unitChar?).bind fun first => (unescape? cs).map (first :: ·)
  | '\\' :: c :: cs => (escaped? c).bind fun first => (unescape? cs).map (first :: ·)
  | '\\' :: [] => none
  | c :: cs => (unescape? cs).map (c :: ·)

/-- The string behind an opening quotation mark, and what follows it. -/
def readText (mark : Char) (cs : List Char) : Token × List Char :=
  match upToQuote? mark cs with
  | none => (.invalid .syntaxError, [])
  | some (inner, rest) =>
    match unescape? inner with
    | some content => (.text (String.ofList content), rest)
    | none => (.invalid .badEscape, [])

/-! ## 3. Numbers -/

/-- The number of whole numbers that can be written. -/
def intBound : Nat := twoTo 128

/-- The digits behind a decimal point, if there is one, and what follows. In front of a name the
    point is not decimal. -/
def fraction? : List Char → Option (List Char × List Char)
  | '.' :: cs =>
    if cs.head?.any startsName then none
    else some (cs.takeWhile Char.isDigit, cs.dropWhile Char.isDigit)
  | _ => none

/-- The sign and the digits behind the mark of an exponent, if there is one, and what follows. -/
def exponent? : List Char → Option (Bool × List Char × List Char)
  | c :: cs =>
    if c = 'e' ∨ c = 'E' then
      let (negative, cs) :=
        match cs with
        | '-' :: cs => (true, cs)
        | cs => (false, Text.dropPlus cs)
      some (negative, cs.takeWhile Char.isDigit, cs.dropWhile Char.isDigit)
    else none
  | [] => none

/-- Above this power of ten no number has a float but infinity. -/
def largestOrder : Int := 400

/-- Below this power of ten every number is nearest to zero. -/
def smallestOrder : Int := -400

/-- The float nearest to `digits * 10 ^ exponent`. -/
def nearestFloat (digits : Nat) (exponent : Int) : Float :=
  let order := exponent + (Nat.toDigits 10 digits).length
  if digits = 0 || order < smallestOrder then 0.0
  else if largestOrder < order then 1.0 / 0.0
  else Float.ofScientific digits (exponent < 0) exponent.natAbs

/-- A float of whole digits, digits behind the point and an exponent. -/
def floatToken (whole places : List Char) (exponent : Option (Bool × List Char)) : Token :=
  let shift? :=
    match exponent with
    | none => some 0
    | some (negative, digits) =>
      (Text.digitsValue? digits).map fun n => if negative then -(n : Int) else n
  match Text.digitsValue? (whole ++ places), shift? with
  | some n, some shift => .float (nearestFloat n (shift - places.length))
  | _, _ => .invalid .syntaxError

/-- A whole number. -/
def intToken (digits : List Char) : Token :=
  match Text.readBounded? intBound digits with
  | some n => .int n
  | none => .invalid .syntaxError

/-- The number at the front of a text, and what follows it. -/
def readNumber (cs : List Char) : Token × List Char :=
  let whole := cs.takeWhile Char.isDigit
  let rest := cs.dropWhile Char.isDigit
  match fraction? rest with
  | some (places, rest) =>
    match exponent? rest with
    | some (negative, digits, rest) => (floatToken whole places (some (negative, digits)), rest)
    | none => (floatToken whole places none, rest)
  | none =>
    match exponent? rest with
    | some (negative, digits, rest) => (floatToken whole [] (some (negative, digits)), rest)
    | none => (intToken whole, rest)

/-! ## 4. Signs -/

/-- The sign at the front of a text, and what follows it. The longer of two signs is taken. -/
def readSign? : List Char → Option (Sign × List Char)
  | '/' :: '/' :: cs => some (.doubleSlash, cs)
  | '*' :: '*' :: cs => some (.doubleStar, cs)
  | '=' :: '=' :: cs => some (.equals, cs)
  | '!' :: '=' :: cs => some (.differs, cs)
  | '>' :: '=' :: cs => some (.atLeast, cs)
  | '<' :: '=' :: cs => some (.atMost, cs)
  | '+' :: cs => some (.plus, cs)
  | '-' :: cs => some (.minus, cs)
  | '*' :: cs => some (.star, cs)
  | '/' :: cs => some (.slash, cs)
  | '%' :: cs => some (.percent, cs)
  | '~' :: cs => some (.tilde, cs)
  | '|' :: cs => some (.bar, cs)
  | '<' :: cs => some (.less, cs)
  | '>' :: cs => some (.greater, cs)
  | '=' :: cs => some (.assign, cs)
  | '.' :: cs => some (.dot, cs)
  | ',' :: cs => some (.comma, cs)
  | ':' :: cs => some (.colon, cs)
  | '(' :: cs => some (.openParen, cs)
  | ')' :: cs => some (.closeParen, cs)
  | '[' :: cs => some (.openBracket, cs)
  | ']' :: cs => some (.closeBracket, cs)
  | '{' :: cs => some (.openBrace, cs)
  | '}' :: cs => some (.closeBrace, cs)
  | _ => none

/-! ## 5. Tokens -/

/-- The token at the front of a text that begins with `c`, and what follows it. -/
def next (c : Char) (cs : List Char) : Token × List Char :=
  if startsName c then
    (.name (String.ofList (c :: cs.takeWhile continuesName)), cs.dropWhile continuesName)
  else if c.isDigit then readNumber (c :: cs)
  else if c = '\'' ∨ c = '"' then readText c cs
  else
    match readSign? (c :: cs) with
    | some (s, rest) => (.sign s, rest)
    | none => (.invalid .syntaxError, [])

/-- The tokens of a text of at most `fuel` characters. -/
def listFrom : Nat → List Char → List Token
  | 0, _ => []
  | fuel + 1, cs =>
    match cs.dropWhile isSpace with
    | [] => []
    | c :: cs =>
      let (token, rest) := next c cs
      token :: listFrom fuel rest

/-- The tokens of an expression. -/
def ofText (s : String) : List Token := listFrom s.toList.length s.toList

end Token

end SqlTemplate.Expression
