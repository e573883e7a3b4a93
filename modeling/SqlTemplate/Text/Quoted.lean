import SqlTemplate.Text.Unprinted

/-!
# Quoted text

The form in which a string or a byte string is shown inside a list or a mapping.

* `quoteText`: double quotes around a text, with the usual short escapes and a code point in
  braces for a character that is not printed;
* `quoteBytes`: a byte string in ASCII, with two hexadecimal digits for any other byte.
-/

namespace SqlTemplate.Text

/-- Hexadecimal digits in lower case. -/
def hexText (n : Nat) : List Char := Nat.toDigits 16 n

/-! ## 1. Strings -/

/-- One character of a quoted text. -/
def quoteChar (c : Char) : List Char :=
  match c with
  | '\t' => ['\\', 't']
  | '\r' => ['\\', 'r']
  | '\n' => ['\\', 'n']
  | '"' => ['\\', '"']
  | '\\' => ['\\', '\\']
  | c =>
    if c.toNat = 0 then ['\\', '0']
    else if isUnprinted c then ['\\', 'u', '{'] ++ hexText c.toNat ++ ['}']
    else [c]

/-- A text in double quotes. -/
def quoteText (s : String) : String :=
  String.ofList ('"' :: (s.toList.flatMap quoteChar ++ ['"']))

/-! ## 2. Byte strings -/

/-- One byte of a quoted byte string. -/
def quoteByte (b : UInt8) : List Char :=
  let n := b.toNat
  let c := Char.ofNat n
  match c with
  | '\t' => ['\\', 't']
  | '\r' => ['\\', 'r']
  | '\n' => ['\\', 'n']
  | '\'' => ['\\', '\'']
  | '\\' => ['\\', '\\']
  | c =>
    if 0x20 ≤ n && n < 0x7F then [c]
    else '\\' :: 'x' :: (if n < 16 then '0' :: hexText n else hexText n)

/-- A byte string between single quotes, behind a `b`. -/
def quoteBytes (bs : List UInt8) : String :=
  String.ofList ('b' :: '\'' :: (bs.flatMap quoteByte ++ ['\'']))

end SqlTemplate.Text
