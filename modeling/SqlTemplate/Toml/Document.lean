import SqlTemplate.Toml.Number
import SqlTemplate.Toml.Quoted
import SqlTemplate.Toml.Value

/-!
# TOML documents

* `readValue?`: the value at the front of a text;
* `Document`: a document up to the line that has been read;
* `Toml.parse?`: the entries of a document; `none` when it is malformed or defines anything twice.
-/

namespace SqlTemplate.Toml

/-! ## 1. Blanks and comments -/

/-- A text without the blanks at its front. -/
def skipSpaces (cs : List Char) : List Char := cs.dropWhile isSpace

/-- What follows a comment, if one begins the text. A comment holds no control characters. -/
def skipComment? : List Char → Option (List Char)
  | '#' :: cs =>
    let rest := cs.dropWhile fun c => c == '\t' || 0x20 ≤ c.toNat
    some rest
  | cs => some cs

/-- What follows the end of a line, which may be that of the text. -/
def skipLineEnd? : List Char → Option (List Char)
  | [] => some []
  | '\n' :: cs => some cs
  | '\r' :: '\n' :: cs => some cs
  | _ => none

/-- What follows the blanks and the comment at the end of a line. -/
def endLine? (cs : List Char) : Option (List Char) :=
  (skipComment? (skipSpaces cs)).bind skipLineEnd?

/-- What follows blanks, line ends and comments in a text of at most `fuel` characters. -/
def skipGaps : Nat → List Char → List Char
  | 0, cs => cs
  | fuel + 1, cs =>
    match skipSpaces cs with
    | '#' :: cs =>
      match endLine? ('#' :: cs) with
      | some rest => skipGaps fuel rest
      | none => '#' :: cs
    | '\n' :: cs => skipGaps fuel cs
    | '\r' :: '\n' :: cs => skipGaps fuel cs
    | cs => cs

/-- What follows blanks, line ends and comments. -/
def skipLines (cs : List Char) : List Char := skipGaps cs.length cs

/-! ## 2. Values -/

/-- The characters of numbers, dates and truth values. -/
def isWordChar (c : Char) : Bool :=
  c.isAlphanum || c == '+' || c == '-' || c == '_' || c == '.' || c == ':'

/-- A date with a time of day behind a blank, and what follows. -/
def readSpacedMoment? (word rest : List Char) : Option (Value × List Char) :=
  match rest with
  | ' ' :: cs =>
    let time := cs.takeWhile isWordChar
    if afterDate? word = some [] ∧ isMoment (word ++ ' ' :: time) then
      some (.moment, cs.dropWhile isWordChar)
    else none
  | _ => none

/-- A number, a date or a truth value at the front of a text, and what follows. -/
def readWord? (cs : List Char) : Option (Value × List Char) :=
  let word := cs.takeWhile isWordChar
  let rest := cs.dropWhile isWordChar
  if word = ['t', 'r', 'u', 'e'] then some (.boolean true, rest)
  else if word = ['f', 'a', 'l', 's', 'e'] then some (.boolean false, rest)
  else if isNumber word then some (.number, rest)
  else
    match readSpacedMoment? word rest with
    | some found => some found
    | none => if isMoment word then some (.moment, rest) else none

mutual

/-- The value at the front of a text, and what follows. -/
def readValueFrom? : Nat → List Char → Option (Value × List Char)
  | 0, _ => none
  | fuel + 1, cs =>
    match cs with
    | '[' :: cs => (readItems? fuel (skipLines cs)).map fun (items, rest) => (.array items, rest)
    | '{' :: cs =>
      match skipSpaces cs with
      | '}' :: rest => some (.table .braces [], rest)
      | cs => (readPairs? fuel [] cs).map fun (entries, rest) => (.table .braces entries, rest)
    | '"' :: _ => (readString? cs).map fun (s, rest) => (.text s, rest)
    | '\'' :: _ => (readString? cs).map fun (s, rest) => (.text s, rest)
    | cs => readWord? cs

/-- The items up to the bracket that closes an array, and what follows. -/
def readItems? : Nat → List Char → Option (List Value × List Char)
  | 0, _ => none
  | fuel + 1, cs =>
    match cs with
    | ']' :: rest => some ([], rest)
    | cs =>
      match readValueFrom? fuel cs with
      | none => none
      | some (v, rest) =>
        match skipLines rest with
        | ']' :: rest => some ([v], rest)
        | ',' :: rest =>
          (readItems? fuel (skipLines rest)).map fun (items, rest) => (v :: items, rest)
        | _ => none

/-- The entries up to the brace that closes a table, on top of those in front of them, and what
    follows. -/
def readPairs? : Nat → Entries → List Char → Option (Entries × List Char)
  | 0, _, _ => none
  | fuel + 1, entries, cs =>
    match readKey? cs with
    | some (path, last, '=' :: rest) =>
      match readValueFrom? fuel (skipSpaces rest) with
      | none => none
      | some (v, rest) =>
        match entries.assign? v last path, skipSpaces rest with
        | some entries, '}' :: rest => some (entries, rest)
        | some entries, ',' :: rest => readPairs? fuel entries (skipSpaces rest)
        | _, _ => none
    | _ => none

end

/-- The value at the front of a text, and what follows. -/
def readValue? (cs : List Char) : Option (Value × List Char) :=
  readValueFrom? (2 * cs.length + 1) cs

/-! ## 3. Documents -/

/-- A document up to some line. -/
structure Document where
  entries : Entries := []
  /-- The keys of the table whose entries the next lines give. -/
  place : List String := []

namespace Document

/-- Reads an entry, and what follows its line. -/
def readEntry? (d : Document) (cs : List Char) : Option (Document × List Char) :=
  match readKey? cs with
  | some (path, last, '=' :: rest) =>
    match readValue? (skipSpaces rest) with
    | none => none
    | some (v, rest) =>
      (d.entries.update? (Entries.assign? v last path) d.place).bind fun entries =>
        (endLine? rest).map fun rest => ({ d with entries }, rest)
  | _ => none

/-- Reads a header behind its opening brackets, and what follows its line. The header ends in
    `close`, and `enter` begins its table. -/
def readHeader? (d : Document) (close : List Char)
    (enter : List String → String → Entries → Option Entries) (cs : List Char) :
    Option (Document × List Char) :=
  match readKey? (skipSpaces cs) with
  | none => none
  | some (path, last, rest) =>
    (close.isPrefixOf? rest).bind fun rest =>
      (enter path last d.entries).bind fun entries =>
        (endLine? rest).map fun rest => (⟨entries, path ++ [last]⟩, rest)

/-- Reads one line that is not blank, and what follows it. -/
def readLine? (d : Document) : List Char → Option (Document × List Char)
  | '[' :: '[' :: cs => d.readHeader? [']', ']'] Entries.openElement? cs
  | '[' :: cs => d.readHeader? [']'] Entries.openTable? cs
  | cs => d.readEntry? cs

/-- Reads the lines of a text of at most `fuel` characters. -/
def readLines? (d : Document) : Nat → List Char → Option Document
  | fuel, cs =>
    match skipLines cs, fuel with
    | [], _ => some d
    | _, 0 => none
    | cs, fuel + 1 => (d.readLine? cs).bind fun (d, rest) => readLines? d fuel rest

end Document

/-- A text without the mark of its byte order. -/
def dropByteOrderMark : List Char → List Char
  | c :: cs => if c.toNat = 0xFEFF then cs else c :: cs
  | [] => []

/-- The entries of a document. -/
def parse? (text : String) : Option Entries :=
  let cs := dropByteOrderMark text.toList
  (Document.readLines? {} cs.length cs).map (·.entries)

end SqlTemplate.Toml
