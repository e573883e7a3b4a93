/-!
# Patterns

How patterns are read and what they denote, whatever units an engine of regular expressions knows.

* `Regex`: the expressions that patterns denote;
* `Lexeme`: the units that a pattern is written in;
* `Frame`, `Reading`: a pattern up to a place;
* `Dialect`: the units of an engine;
* `Dialect.parse?`: the expression that a pattern denotes; `none` when the pattern is malformed.
-/

namespace SqlTemplate.Pattern

/-! ## 1. Expressions -/

/-- A regular expression. Its atoms are what a dialect lets match without parts of its own: a
    character, a class of characters, a place between two characters. -/
inductive Regex (Atom : Type) where
  /-- The empty text. -/
  | empty
  | atom (a : Atom)
  | both (first second : Regex Atom)
  | either (left right : Regex Atom)
  /-- At least `least` repetitions and, where there is a bound, at most that many. -/
  | repeated (least : Nat) (most : Option Nat) (r : Regex Atom)
  deriving DecidableEq, Repr

namespace Regex

variable {Atom : Type}

/-- Expressions one after the other. -/
def ofSequence : List (Regex Atom) → Regex Atom
  | [] => .empty
  | [r] => r
  | r :: rs => .both r (ofSequence rs)

/-- A choice of expressions, of which the last stands apart. -/
def ofChoice (last : Regex Atom) : List (Regex Atom) → Regex Atom
  | [] => last
  | r :: rs => .either r (ofChoice last rs)

end Regex

/-! ## 2. Units -/

/-- A unit of a written pattern. -/
inductive Lexeme (Flags Atom : Type) where
  | atom (a : Atom)
  | bar
  /-- An opening parenthesis, with the flags inside of the group. -/
  | opening (inside : Flags)
  | closing
  /-- Other flags, up to the end of the group. -/
  | flags (behind : Flags)
  | repetition (least : Nat) (most : Option Nat)
  /-- What says nothing, such as blanks and comments where these are allowed. -/
  | blank
  /-- A comment that is still open at the end of the pattern. -/
  | comment
  deriving DecidableEq, Repr

/-! ## 3. Groups -/

/-- A group up to the place that has been read. -/
structure Frame (Flags Atom : Type) where
  /-- The flags at this place. -/
  flags : Flags
  /-- The alternatives that are complete. -/
  choices : List (Regex Atom) := []
  /-- The alternative that is being read, last part first. A switch of flags leaves a gap, which
      nothing can repeat. -/
  parts : List (Option (Regex Atom)) := []

namespace Frame

variable {Flags Atom : Type}

/-- The alternative that is being read. -/
def alternative (f : Frame Flags Atom) : Regex Atom := .ofSequence (f.parts.filterMap id).reverse

/-- The expression of a group that is complete. -/
def regex (f : Frame Flags Atom) : Regex Atom := .ofChoice f.alternative f.choices

/-- One more part. -/
def add (r : Regex Atom) (f : Frame Flags Atom) : Frame Flags Atom :=
  { f with parts := some r :: f.parts }

/-- The next alternative begins. -/
def split (f : Frame Flags Atom) : Frame Flags Atom :=
  { f with choices := f.choices ++ [f.alternative], parts := [] }

/-- Other flags from here on. -/
def switch (flags : Flags) (f : Frame Flags Atom) : Frame Flags Atom :=
  { f with flags, parts := none :: f.parts }

/-- Repeats the last part; `none` when there is none. -/
def repeatLast? (least : Nat) (most : Option Nat) (f : Frame Flags Atom) :
    Option (Frame Flags Atom) :=
  match f.parts with
  | some r :: rest => some { f with parts := some (.repeated least most r) :: rest }
  | _ => none

end Frame

/-- A pattern up to the place that has been read. -/
structure Reading (Flags Names Atom : Type) where
  /-- What is remembered of the whole pattern, such as the names of its groups. -/
  names : Names
  /-- The group that is being read. -/
  group : Frame Flags Atom
  /-- The groups around it, from the inside out. -/
  outer : List (Frame Flags Atom) := []

namespace Reading

variable {Flags Names Atom : Type}

/-- Takes in a unit behind which `names` are remembered; `none` where it cannot stand. -/
def take? (q : Reading Flags Names Atom) (names : Names) :
    Lexeme Flags Atom → Option (Reading Flags Names Atom)
  | .atom a => some { q with names, group := q.group.add (.atom a) }
  | .bar => some { q with names, group := q.group.split }
  | .opening inside => some { names, group := { flags := inside }, outer := q.group :: q.outer }
  | .closing =>
    match q.outer with
    | [] => none
    | g :: outer => some { names, group := g.add q.group.regex, outer }
  | .flags behind => some { q with names, group := q.group.switch behind }
  | .repetition least most =>
    (q.group.repeatLast? least most).map fun group => { q with names, group }
  | .blank => some { q with names }
  | .comment => none

/-- The expression of a pattern that ends here; `none` when a group is still open. -/
def regex? (q : Reading Flags Names Atom) : Option (Regex Atom) :=
  if q.outer.isEmpty then some q.group.regex else none

end Reading

/-! ## 4. Patterns -/

/-- What an engine of regular expressions lets patterns be made of. -/
structure Dialect (Flags Names Atom : Type) where
  /-- The flags at the start of a pattern. -/
  flags : Flags
  /-- What is remembered at the start of a pattern. -/
  names : Names
  /-- The unit at the front of a text, what is remembered behind it, and what follows. -/
  next? : Flags → Names → List Char → Option (Lexeme Flags Atom × Names × List Char)
  /-- The atom that a caret stands for at the start of a pattern. -/
  caret : Atom
  /-- The atom that a dollar sign stands for under the flags of the start. -/
  dollar : Atom
  /-- Whether an atom matches the part of a text between two places. -/
  Spans : Atom → List Char → Nat → Nat → Prop

namespace Dialect

variable {Flags Names Atom : Type}

/-- A pattern of which nothing has been read. -/
def start (d : Dialect Flags Names Atom) : Reading Flags Names Atom :=
  { names := d.names, group := { flags := d.flags } }

/-- Reads at most `fuel` units. -/
def readFrom? (d : Dialect Flags Names Atom) :
    Nat → Reading Flags Names Atom → List Char → Option (Regex Atom)
  | _, q, [] => q.regex?
  | 0, _, _ :: _ => none
  | fuel + 1, q, c :: cs =>
    match d.next? q.group.flags q.names (c :: cs) with
    | none => none
    | some (.comment, _, _) => q.regex?
    | some (lexeme, names, rest) =>
      match q.take? names lexeme with
      | some q => d.readFrom? fuel q rest
      | none => none

/-- The expression that a pattern denotes. -/
def parse? (d : Dialect Flags Names Atom) (pattern : List Char) : Option (Regex Atom) :=
  d.readFrom? pattern.length d.start pattern

end Dialect

end SqlTemplate.Pattern
