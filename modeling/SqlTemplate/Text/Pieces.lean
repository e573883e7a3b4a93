/-!
# Cutting and joining character lists

* `splitOnce`: the two sides of the first occurrence of a separator;
* `splitAll`: the parts between the occurrences of one character;
* `joinWith`: parts put together again with a separator between them;
* `occursIn`: whether one list stands somewhere inside another;
* `utf8Size`: the length of a text in bytes, the unit in which offsets are reported.
-/

namespace SqlTemplate.Text

/-- What stands before and after the first occurrence of `sep`; `none` when there is none. -/
def splitOnce (sep : List Char) : List Char → Option (List Char × List Char)
  | [] => if sep.isEmpty then some ([], []) else none
  | c :: cs =>
    match sep.isPrefixOf? (c :: cs) with
    | some rest => some ([], rest)
    | none => (splitOnce sep cs).map fun (before, after) => (c :: before, after)

/-- The parts between the occurrences of `sep`: one more than there are occurrences. -/
def splitAll (sep : Char) : List Char → List (List Char)
  | [] => [[]]
  | c :: cs =>
    if c = sep then [] :: splitAll sep cs
    else
      match splitAll sep cs with
      | [] => [[c]]
      | part :: parts => (c :: part) :: parts

/-- The parts one after the other, with `sep` between any two neighbours. -/
def joinWith (sep : List Char) : List (List Char) → List Char
  | [] => []
  | [part] => part
  | part :: parts => part ++ sep ++ joinWith sep parts

/-- Whether `needle` stands somewhere in the text. -/
def occursIn (needle : List Char) : List Char → Bool
  | [] => needle.isEmpty
  | c :: cs => needle.isPrefixOf (c :: cs) || occursIn needle cs

/-- The number of bytes of a text. -/
def utf8Size : List Char → Nat
  | [] => 0
  | c :: cs => c.utf8Size + utf8Size cs

/-- Strings one after the other, with `sep` between any two neighbours. -/
def joinTexts (sep : String) (parts : List String) : String :=
  String.ofList (joinWith sep.toList (parts.map String.toList))

end SqlTemplate.Text
