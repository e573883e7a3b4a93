import SqlTemplate.Text.Pieces

/-!
# Reading a text by offsets

* `slice?`: the part of a text between two byte offsets, if they are in order and stand between
  characters;
* `Cursor`: a place in a text, with the number of bytes in front of it and the text behind it;
* `Part`: a part of a text with the offsets of its ends.
-/

namespace SqlTemplate.Text

/-! ## 1. Slices -/

/-- The first `size` bytes of a text; `none` when it is shorter or when they end inside a
    character. -/
def takeBytes? : Nat → List Char → Option (List Char)
  | 0, _ => some []
  | _ + 1, [] => none
  | size + 1, c :: cs =>
    if c.utf8Size ≤ size + 1 then (takeBytes? (size + 1 - c.utf8Size) cs).map (c :: ·) else none

/-- What is left of a text without its first `size` bytes; `none` when it is shorter or when they
    end inside a character. -/
def dropBytes? : Nat → List Char → Option (List Char)
  | 0, cs => some cs
  | _ + 1, [] => none
  | size + 1, c :: cs =>
    if c.utf8Size ≤ size + 1 then dropBytes? (size + 1 - c.utf8Size) cs else none

/-- The part of a text from the offset `start` up to the offset `stop`. -/
def slice? (cs : List Char) (start stop : Nat) : Option (List Char) :=
  if start ≤ stop then (dropBytes? start cs).bind (takeBytes? (stop - start)) else none

/-! ## 2. Cursors -/

/-- A part of a text, from the offset `start` up to the offset `stop`. -/
structure Part where
  start : Nat
  stop : Nat
  raw : List Char
  deriving DecidableEq, Repr

/-- A place in a text. -/
structure Cursor where
  offset : Nat
  rest : List Char
  deriving DecidableEq, Repr

namespace Cursor

/-- The start of a text. -/
def ofText (cs : List Char) : Cursor := ⟨0, cs⟩

/-- The characters at the front that satisfy `p`, and the place behind them. -/
def takeWhile (p : Char → Bool) (c : Cursor) : Part × Cursor :=
  let raw := c.rest.takeWhile p
  let stop := c.offset + utf8Size raw
  (⟨c.offset, stop, raw⟩, ⟨stop, c.rest.dropWhile p⟩)

/-- The place behind the characters at the front that satisfy `p`. -/
def skipWhile (p : Char → Bool) (c : Cursor) : Cursor := (c.takeWhile p).2

/-- Everything from the place to the end of the text. -/
def remainder (c : Cursor) : Part := ⟨c.offset, c.offset + utf8Size c.rest, c.rest⟩

end Cursor

end SqlTemplate.Text
