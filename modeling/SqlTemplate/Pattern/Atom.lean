import SqlTemplate.Text.CaseTable

/-!
# Atoms of patterns

* `Common.Flags`: how letters, dots, line anchors and blanks are understood;
* `CharClass`: a set of characters given by ranges, possibly taken the other way round;
* `Common.Atom`: what matches one character, or a place between two;
* `Common.Atom.ends`: where a match of an atom ends.
-/

namespace SqlTemplate.Pattern

/-- A set of characters. -/
structure CharClass where
  /-- Whether the set holds the characters outside of the ranges. -/
  negated : Bool
  /-- First and last character of each range. -/
  ranges : List (Char × Char)
  deriving DecidableEq, Repr

namespace CharClass

/-- The set of one character. -/
def single (c : Char) : CharClass := ⟨false, [(c, c)]⟩

/-- All characters. -/
def all : CharClass := ⟨true, []⟩

/-- All characters but the line feed. -/
def notLineFeed : CharClass := ⟨true, [('\n', '\n')]⟩

/-- Whether a character lies in one of the ranges. -/
def inRanges (s : CharClass) (c : Char) : Bool :=
  s.ranges.any fun (first, last) => first ≤ c && c ≤ last

/-- Whether the set holds a character. When case is ignored, the ranges hold a character as soon
    as they hold one that differs from it in case. -/
def holds (ignoreCase : Bool) (s : CharClass) (c : Char) : Bool :=
  let inside := if ignoreCase then (Text.caseVariants c).any s.inRanges else s.inRanges c
  inside != s.negated

end CharClass

namespace Common

/-- How the units of a pattern are understood. -/
structure Flags where
  /-- Letters stand for both cases. -/
  ignoreCase : Bool := false
  /-- A dot stands for a line feed too. -/
  dotAll : Bool := false
  /-- Anchors stand for the ends of lines too. -/
  multiLine : Bool := false
  /-- Blanks say nothing, and a number sign begins a comment. -/
  verbose : Bool := false
  deriving DecidableEq, Repr

/-- Switches flags on and off. -/
def Flags.switch (flags : Flags) (on off : List Char) : Flags where
  ignoreCase := (flags.ignoreCase || on.contains 'i') && !off.contains 'i'
  dotAll := (flags.dotAll || on.contains 's') && !off.contains 's'
  multiLine := (flags.multiLine || on.contains 'm') && !off.contains 'm'
  verbose := (flags.verbose || on.contains 'x') && !off.contains 'x'

/-- What matches without parts of its own. -/
inductive Atom where
  /-- One character of a set. -/
  | one (ignoreCase : Bool) (s : CharClass)
  /-- The start of the text, or of a line. -/
  | start (multiLine : Bool)
  /-- The end of the text, or of a line. -/
  | stop (multiLine : Bool)
  deriving DecidableEq, Repr

namespace Atom

/-- Whether a line starts at a place. -/
def atStart (multiLine : Bool) (text : List Char) (i : Nat) : Bool :=
  i == 0 || (multiLine && text[i - 1]? == some '\n')

/-- Whether a line ends at a place. -/
def atStop (multiLine : Bool) (text : List Char) (i : Nat) : Bool :=
  i == text.length || (multiLine && text[i]? == some '\n')

/-- The places at which a match from place `i` can end. -/
def ends (text : List Char) (i : Nat) : Atom → List Nat
  | .one ignoreCase s =>
    match text[i]? with
    | some c => if s.holds ignoreCase c then [i + 1] else []
    | none => []
  | .start multiLine => if atStart multiLine text i then [i] else []
  | .stop multiLine => if atStop multiLine text i then [i] else []

end Atom

end Common

end SqlTemplate.Pattern
