import SqlTemplate.Pattern.Atom
import SqlTemplate.Pattern.Dialect
import SqlTemplate.Text.Blank
import SqlTemplate.Text.Natural

/-!
# The common dialect of patterns

The syntax that engines of regular expressions have in common. A pattern with a unit that is not
part of it is refused, although an engine may know the unit: escapes for classes of characters and
for code points, classes inside of classes and operations on them, other flags. Where blanks say
nothing they stand between units, not inside of a class or of the bounds of a repetition, and no
comment is left open behind such bounds.

* `Common.skip?`: what stands behind blanks and comments;
* `Common.next?`: the unit at the front of a text; `none` when it is malformed;
* `Dialect.common`: the dialect.
-/

namespace SqlTemplate.Pattern

namespace Common

/-- A unit of the common dialect. -/
abbrev Unit := Lexeme Flags Atom

/-! ## 1. Blanks -/

/-- What follows blanks and comments; `none` when a comment is still open at the end. -/
def skip? (inComment : Bool) : List Char → Option (List Char)
  | [] => if inComment then none else some []
  | c :: cs =>
    if inComment then skip? (c != '\n') cs
    else if Text.isBlank c then skip? false cs
    else if c = '#' then skip? true cs
    else some (c :: cs)

/-- What follows blanks and comments where these are allowed. -/
def skipFor? (flags : Flags) (cs : List Char) : Option (List Char) :=
  if flags.verbose then skip? false cs else some cs

/-- Whether a text holds no blank and no comment, where these are allowed. -/
def isSolid (flags : Flags) (cs : List Char) : Bool :=
  !flags.verbose || cs.all fun c => !Text.isBlank c && c != '#'

/-- What stands in front of the text that is left. -/
def consumed (cs rest : List Char) : List Char := cs.take (cs.length - rest.length)

/-! ## 2. Escapes -/

/-- The character that an escape letter stands for. -/
def escapedLetter? : Char → Option Char
  | 'a' => some (Char.ofNat 0x07)
  | 'f' => some (Char.ofNat 0x0C)
  | 'n' => some '\n'
  | 'r' => some '\r'
  | 't' => some '\t'
  | 'v' => some (Char.ofNat 0x0B)
  | _ => none

/-- Whether a backslash in front of the character makes it stand for itself. -/
def isEscapable (c : Char) : Bool := c.toNat < 128 && !c.isAlphanum && c != '<' && c != '>'

/-- The character that stands behind a backslash. -/
def escaped? (c : Char) : Option Char :=
  match escapedLetter? c with
  | some d => some d
  | none => if isEscapable c then some c else none

/-- What stands behind a backslash, and what follows. -/
def escape? (flags : Flags) : List Char → Option (Unit × List Char)
  | [] => none
  | 'A' :: rest => some (.atom (.start false), rest)
  | 'z' :: rest => some (.atom (.stop false), rest)
  | c :: rest => (escaped? c).map fun d => (.atom (.one flags.ignoreCase (.single d)), rest)

/-! ## 3. Classes -/

/-- One end of a range, and what follows it. -/
def classChar? : List Char → Option (Char × List Char)
  | '\\' :: c :: rest => (escaped? c).map fun d => (d, rest)
  | '\\' :: [] => none
  | c :: rest => some (c, rest)
  | [] => none

/-- One range of a class, and what follows it. A hyphen in front of the bracket or of another hyphen
    does not make a range. -/
def classItem? (cs : List Char) : Option ((Char × Char) × List Char) :=
  match classChar? cs with
  | none => none
  | some (first, '-' :: next) =>
    if next.head? = some ']' ∨ next.head? = some '-' then some ((first, first), '-' :: next)
    else
      match classChar? next with
      | none => none
      | some (last, rest) => if first ≤ last then some ((first, last), rest) else none
  | some (c, rest) => some ((c, c), rest)

/-- Whether an operation on classes stands at the front of a text: one of three signs, twice. -/
def isOperation : List Char → Bool
  | c :: d :: _ => c == d && (c == '&' || c == '-' || c == '~')
  | _ => false

/-- The ranges up to the bracket that closes a class, and what follows it. -/
def classRanges? : Nat → List Char → Option (List (Char × Char) × List Char)
  | 0, _ => none
  | fuel + 1, cs =>
    match cs with
    | [] => none
    | ']' :: rest => some ([], rest)
    | '[' :: _ => none
    | cs =>
      if isOperation cs then none
      else
        match classItem? cs with
        | none => none
        | some (range, rest) =>
          (classRanges? fuel rest).map fun (ranges, rest) => (range :: ranges, rest)

/-- The caret at the front of a class. -/
def dropCaret : List Char → Bool × List Char
  | '^' :: rest => (true, rest)
  | cs => (false, cs)

/-- The hyphens at the front, as ranges, and what follows them. -/
def leadingHyphens : List Char → List (Char × Char) × List Char
  | '-' :: cs =>
    let (ranges, rest) := leadingHyphens cs
    (('-', '-') :: ranges, rest)
  | cs => ([], cs)

/-- The closing bracket that stands for itself at the front of a class without hyphens. -/
def firstRanges (hyphens : List (Char × Char)) (cs : List Char) : List (Char × Char) × List Char :=
  match hyphens, cs with
  | [], ']' :: rest => ([(']', ']')], rest)
  | hyphens, cs => (hyphens, cs)

/-- A class whose opening bracket has been read. -/
def class? (cs : List Char) : Option (CharClass × List Char) :=
  let (negated, cs) := dropCaret cs
  let (hyphens, cs) := leadingHyphens cs
  let (firsts, cs) := firstRanges hyphens cs
  (classRanges? (cs.length + 1) cs).map fun (ranges, rest) => (⟨negated, firsts ++ ranges⟩, rest)

/-! ## 4. Repetitions -/

/-- The count of a repetition with blanks around it, and what follows. -/
def count? (cs : List Char) : Option (Nat × List Char) :=
  let cs := Text.trimStart cs
  match Text.digitsValue? (cs.takeWhile Char.isDigit) with
  | some n =>
    if n < twoTo 32 then some (n, Text.trimStart (cs.dropWhile Char.isDigit)) else none
  | none => none

/-- The bounds of a repetition whose opening brace has been read. -/
def bounds? (cs : List Char) : Option (Nat × Option Nat × List Char) :=
  match count? cs with
  | none => none
  | some (least, '}' :: rest) => some (least, some least, rest)
  | some (least, ',' :: next) =>
    match Text.trimStart next with
    | '}' :: rest => some (least, none, rest)
    | next =>
      match count? next with
      | some (most, '}' :: rest) => if least ≤ most then some (least, some most, rest) else none
      | _ => none
  | _ => none

/-- What follows the question mark that makes a repetition lazy, if there is one. -/
def dropLazy : List Char → List Char
  | '?' :: rest => rest
  | cs => cs

/-! ## 5. Groups -/

/-- Whether the character names a flag. -/
def isFlag (c : Char) : Bool := c == 'i' || c == 's' || c == 'm' || c == 'x'

/-- The flags up to a colon or a closing parenthesis, and what follows with that character. No
    flag may stand twice, and some flag has to follow a minus sign. -/
def flagLetters? (on off : List Char) (negative : Bool) :
    List Char → Option (List Char × List Char × List Char)
  | [] => none
  | c :: rest =>
    if c = ':' ∨ c = ')' then
      if negative ∧ off.isEmpty then none else some (on, off, c :: rest)
    else if c = '-' then if negative then none else flagLetters? on off true rest
    else if isFlag c ∧ !(on ++ off).contains c then
      if negative then flagLetters? on (off ++ [c]) true rest
      else flagLetters? (on ++ [c]) off false rest
    else none

/-- What flags behind an opening parenthesis and a question mark begin, and what follows. -/
def flagged? (flags : Flags) (cs : List Char) : Option (Unit × List Char) :=
  match flagLetters? [] [] false cs with
  | some (on, off, ':' :: rest) => some (.opening (flags.switch on off), rest)
  | some (on, off, ')' :: rest) =>
    if on.isEmpty ∧ off.isEmpty then none else some (.flags (flags.switch on off), rest)
  | _ => none

/-- Whether a character may stand in the name of a group. -/
def isNameChar (c : Char) : Bool :=
  c.isAlphanum || c == '_' || c == '.' || c == '[' || c == ']'

/-- Whether a character may begin the name of a group. -/
def startsName (c : Char) : Bool := c.isAlpha || c == '_'

/-- A group whose name comes next, up to an angle bracket. No two groups have the same name. -/
def named? (flags : Flags) (names : List (List Char)) (cs : List Char) :
    Option (Unit × List (List Char) × List Char) :=
  let name := cs.takeWhile isNameChar
  match cs.dropWhile isNameChar with
  | '>' :: rest =>
    if name.head?.any startsName ∧ !names.contains name then
      some (.opening flags, name :: names, rest)
    else none
  | _ => none

/-- What an opening parenthesis with a question mark begins, and what follows. -/
def group? (flags : Flags) (names : List (List Char)) :
    List Char → Option (Unit × List (List Char) × List Char)
  | 'P' :: '<' :: cs => named? flags names cs
  | '<' :: cs => named? flags names cs
  | cs => (flagged? flags cs).map fun (unit, rest) => (unit, names, rest)

/-! ## 6. Units -/

/-- A repetition between bounds whose opening brace has been read, and what follows. -/
def counted? (flags : Flags) (cs : List Char) : Option (Unit × List Char) :=
  match bounds? cs with
  | none => none
  | some (least, most, rest) =>
    if isSolid flags (consumed cs rest) then
      (skipFor? flags rest).map fun rest => (.repetition least most, dropLazy rest)
    else none

/-- A class whose opening bracket has been read, as a unit, and what follows. -/
def bracketed? (flags : Flags) (cs : List Char) : Option (Unit × List Char) :=
  match class? cs with
  | none => none
  | some (s, rest) =>
    if isSolid flags (consumed cs rest) then some (.atom (.one flags.ignoreCase s), rest) else none

/-- The unit that a character begins which opens no group, and what follows. -/
def plain? (flags : Flags) : Char → List Char → Option (Unit × List Char)
  | '.', rest =>
    some (.atom (.one false (if flags.dotAll then .all else .notLineFeed)), rest)
  | '^', rest => some (.atom (.start flags.multiLine), rest)
  | '$', rest => some (.atom (.stop flags.multiLine), rest)
  | '|', rest => some (.bar, rest)
  | ')', rest => some (.closing, rest)
  | '*', rest => some (.repetition 0 none, dropLazy rest)
  | '+', rest => some (.repetition 1 none, dropLazy rest)
  | '?', rest => some (.repetition 0 (some 1), dropLazy rest)
  | '{', rest => counted? flags rest
  | '[', rest => bracketed? flags rest
  | '\\', rest => escape? flags rest
  | c, rest => some (.atom (.one flags.ignoreCase (.single c)), rest)

/-- The unit at the front of a text, the names of the groups up to there, and what follows. -/
def next? (flags : Flags) (names : List (List Char)) :
    List Char → Option (Unit × List (List Char) × List Char)
  | [] => none
  | c :: cs =>
    if flags.verbose ∧ (Text.isBlank c ∨ c = '#') then
      match skip? false (c :: cs) with
      | some rest => some (.blank, names, rest)
      | none => some (.comment, names, [])
    else if c = '(' then
      match skipFor? flags cs with
      | none => none
      | some ('?' :: rest) => group? flags names rest
      | some rest => some (.opening flags, names, rest)
    else (plain? flags c cs).map fun (unit, rest) => (unit, names, rest)

end Common

/-- The common dialect. -/
def Dialect.common : Dialect Common.Flags (List (List Char)) Common.Atom where
  flags := {}
  names := []
  next? := Common.next?
  caret := .start false
  dollar := .stop false
  Spans a text i j := j ∈ a.ends text i

end SqlTemplate.Pattern
