import SqlTemplate.Text.Natural

/-!
# Strings and keys of TOML documents

* `readString?`: the string at the front of a text, in one of its four forms;
* `readKey?`: a key, bare or quoted, with the keys behind its dots.
-/

namespace SqlTemplate.Toml

/-! ## 1. Characters -/

/-- Blanks inside a line. -/
def isSpace (c : Char) : Bool := c == ' ' || c == '\t'

/-- The characters that may stand in a string as they are: all but controls, and the tab. -/
def isPlain (c : Char) : Bool := c == '\t' || (0x20 ≤ c.toNat && c.toNat != 0x7F)

/-- The characters of bare keys. -/
def isBare (c : Char) : Bool := c.isAlphanum || c == '_' || c == '-'

/-- The character with a code point. -/
def ofCode? (n : Nat) : Option Char := if n.isValidChar then some (Char.ofNat n) else none

/-- The character of hexadecimal digits. -/
def ofHex? (digits : List Char) : Option Char := (Text.hexValue? digits).bind ofCode?

/-- The character that a letter behind a backslash stands for. -/
def escaped? : Char → Option Char
  | 'b' => some (Char.ofNat 0x08)
  | 't' => some '\t'
  | 'n' => some '\n'
  | 'f' => some (Char.ofNat 0x0C)
  | 'r' => some '\r'
  | '"' => some '"'
  | '\\' => some '\\'
  | _ => none

/-! ## 2. Contents -/

/-- Where the reading of a string with several lines stands. -/
inductive Place where
  /-- Among the characters of the string. -/
  | content
  /-- Behind a backslash that ends its line, in front of the end of the line. -/
  | lineEnd
  /-- Behind such a line end, in front of the next character that is not blank. -/
  | margin
  deriving DecidableEq, Repr

/-- The content of a basic string whose escapes are still written. Line ends belong to strings of
    several lines only, and so do backslashes in front of them, which join lines. -/
def unescape? (multiline : Bool) : Place → List Char → Option (List Char)
  | .content, [] => some []
  | .margin, [] => some []
  | .lineEnd, [] => none
  | .lineEnd, '\r' :: '\n' :: cs => unescape? multiline .margin cs
  | .lineEnd, c :: cs =>
    if c = '\n' then unescape? multiline .margin cs
    else if isSpace c then unescape? multiline .lineEnd cs
    else none
  | _, '\\' :: 'u' :: a :: b :: c :: d :: cs =>
    (ofHex? [a, b, c, d]).bind fun first => (unescape? multiline .content cs).map (first :: ·)
  | _, '\\' :: 'U' :: a :: b :: c :: d :: e :: f :: g :: h :: cs =>
    (ofHex? [a, b, c, d, e, f, g, h]).bind fun first =>
      (unescape? multiline .content cs).map (first :: ·)
  | _, '\\' :: c :: cs =>
    match escaped? c with
    | some first => (unescape? multiline .content cs).map (first :: ·)
    | none => if multiline then unescape? multiline .lineEnd (c :: cs) else none
  | .margin, c :: cs =>
    if isSpace c ∨ c = '\n' then unescape? multiline .margin cs
    else if c = '\r' then
      match cs with
      | '\n' :: cs => unescape? multiline .margin cs
      | _ => none
    else if isPlain c then (unescape? multiline .content cs).map (c :: ·)
    else none
  | .content, '\r' :: '\n' :: cs =>
    if multiline then (unescape? multiline .content cs).map ('\n' :: ·) else none
  | .content, c :: cs =>
    if isPlain c ∨ (multiline ∧ c = '\n') then (unescape? multiline .content cs).map (c :: ·)
    else none

/-- The content of a literal string, in which nothing is escaped. -/
def literal? (multiline : Bool) : List Char → Option (List Char)
  | [] => some []
  | '\r' :: '\n' :: cs => if multiline then (literal? multiline cs).map ('\n' :: ·) else none
  | c :: cs =>
    if isPlain c ∨ (multiline ∧ c = '\n') then (literal? multiline cs).map (c :: ·) else none

/-! ## 3. Ends -/

/-- The text up to a quotation mark, and what follows the mark. In a basic string a backslash
    keeps the next character from being the mark. -/
def upToMark? (mark : Char) (basic : Bool) : List Char → Option (List Char × List Char)
  | [] => none
  | '\\' :: c :: cs =>
    if basic then (upToMark? mark basic cs).map fun (inner, rest) => ('\\' :: c :: inner, rest)
    else if c = mark then some (['\\'], cs)
    else (upToMark? mark basic cs).map fun (inner, rest) => ('\\' :: c :: inner, rest)
  | c :: cs =>
    if c = mark then some ([], cs)
    else (upToMark? mark basic cs).map fun (inner, rest) => (c :: inner, rest)

/-- Up to two marks that still belong to the string whose three closing marks stand in front of
    them, and what follows. -/
def extraMarks (mark : Char) : List Char → List Char × List Char
  | a :: b :: cs =>
    if a = mark then if b = mark then ([a, b], cs) else ([a], b :: cs) else ([], a :: b :: cs)
  | [a] => if a = mark then ([a], []) else ([], [a])
  | [] => ([], [])

/-- The text up to three quotation marks in a row, and what follows the marks. -/
def upToMarks? (mark : Char) (basic : Bool) : List Char → Option (List Char × List Char)
  | a :: b :: c :: cs =>
    if a = mark ∧ b = mark ∧ c = mark then some (extraMarks mark cs)
    else if a = '\\' ∧ basic then
      (upToMarks? mark basic (c :: cs)).map fun (inner, rest) => (a :: b :: inner, rest)
    else (upToMarks? mark basic (b :: c :: cs)).map fun (inner, rest) => (a :: inner, rest)
  | _ => none

/-! ## 4. Strings -/

/-- A text without the line end at its front. -/
def dropLineEnd : List Char → List Char
  | '\n' :: cs => cs
  | '\r' :: '\n' :: cs => cs
  | cs => cs

/-- The content of a string as it is written between its marks. -/
def content? (basic multiline : Bool) (cs : List Char) : Option String :=
  ((if basic then unescape? multiline .content cs else literal? multiline cs)).map String.ofList

/-- A string on one line behind its opening mark, and what follows. -/
def readLine? (mark : Char) (cs : List Char) : Option (String × List Char) :=
  match upToMark? mark (mark == '"') cs with
  | some (inner, rest) => (content? (mark == '"') false inner).map fun s => (s, rest)
  | none => none

/-- A string of several lines behind its opening marks, and what follows. -/
def readLines? (mark : Char) (cs : List Char) : Option (String × List Char) :=
  match upToMarks? mark (mark == '"') (dropLineEnd cs) with
  | some (inner, rest) => (content? (mark == '"') true inner).map fun s => (s, rest)
  | none => none

/-- The string at the front of a text, and what follows. -/
def readString? : List Char → Option (String × List Char)
  | '"' :: '"' :: '"' :: cs => readLines? '"' cs
  | '\'' :: '\'' :: '\'' :: cs => readLines? '\'' cs
  | '"' :: cs => readLine? '"' cs
  | '\'' :: cs => readLine? '\'' cs
  | _ => none

/-! ## 5. Keys -/

/-- One key at the front of a text, and what follows. -/
def readSimpleKey? : List Char → Option (String × List Char)
  | '"' :: cs => readLine? '"' cs
  | '\'' :: cs => readLine? '\'' cs
  | cs =>
    let bare := cs.takeWhile isBare
    if bare.isEmpty then none else some (String.ofList bare, cs.dropWhile isBare)

/-- The keys between the dots of a text of at most `fuel` characters: those in front of the last
    one, the last one, and what follows. -/
def readKeyFrom? : Nat → List Char → Option (List String × String × List Char)
  | 0, _ => none
  | fuel + 1, cs =>
    match readSimpleKey? cs with
    | none => none
    | some (key, rest) =>
      match rest.dropWhile isSpace with
      | '.' :: next =>
        (readKeyFrom? fuel (next.dropWhile isSpace)).map fun (path, last, rest) =>
          (key :: path, last, rest)
      | rest => some ([], key, rest)

/-- A key, with the keys in front of it that dots separate, and what follows but blanks. -/
def readKey? (cs : List Char) : Option (List String × String × List Char) :=
  readKeyFrom? (cs.length + 1) cs

end SqlTemplate.Toml
