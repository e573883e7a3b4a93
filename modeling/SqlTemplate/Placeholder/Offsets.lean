import SqlTemplate.Placeholder
import SqlTemplate.Scanner

/-!
# Reading contents by offsets

The parser of placeholder contents as it goes over the bytes of a content: it counts offsets and
parentheses, looks at bytes and copies slices. A step that is not possible where it is tried breaks
the reading off.

* `Text.Walk`: a reading by offsets with its steps; `Text.Walk.Step.IsSafe`: which of them are
  possible;
* `Text.skipBytes`: the loop over bytes that are passed by;
* `Placeholder.closingOffset?`: the loop over parentheses;
* `Placeholder.parseOffsets`: what a content says.
-/

namespace SqlTemplate

namespace Text

/-! ## 1. Steps -/

/-- A step of a reading by offsets. -/
inductive Walk.Step where
  /-- The byte at an offset is taken. -/
  | look (offset : Nat)
  /-- The text from the offset `start` up to the offset `stop` is copied. -/
  | slice (start stop : Nat)
  /-- A number of open parentheses is lowered by one. -/
  | lower (depth : Nat)
  /-- An offset or a number of open parentheses is raised by one, to `n`. -/
  | raise (n : Nat)
  deriving DecidableEq, Repr

/-- Whether an offset stands between two characters of a text, or at one of its ends. -/
def IsBoundary (cs : List Char) (offset : Nat) : Prop :=
  ∃ before after, cs = before ++ after ∧ utf8Size before = offset

/-- Whether a step of a reading of `cs` is possible. Raising always is, and what it comes to is no
    more than one beyond the size of the text. -/
def Walk.Step.IsSafe (cs : List Char) : Step → Prop
  | .look offset => offset < utf8Size cs
  | .slice start stop =>
    start ≤ stop ∧ stop ≤ utf8Size cs ∧ IsBoundary cs start ∧ IsBoundary cs stop
  | .lower depth => 0 < depth
  | .raise n => n ≤ utf8Size cs + 1

/-- A reading by offsets: its steps in order, and its result. -/
structure Walk (α : Type) where
  steps : List Walk.Step
  /-- `none` when the last step was not possible. -/
  result : Option α
  deriving DecidableEq, Repr

namespace Walk

instance : Monad Walk where
  pure a := ⟨[], some a⟩
  bind w f :=
    match w.result with
    | none => ⟨w.steps, none⟩
    | some a => ⟨w.steps ++ (f a).steps, (f a).result⟩

/-- Takes the byte at an offset. -/
def look (bs : List UInt8) (offset : Nat) : Walk UInt8 := ⟨[.look offset], bs[offset]?⟩

/-- Copies a slice. -/
def slice (cs : List Char) (start stop : Nat) : Walk (List Char) :=
  ⟨[.slice start stop], slice? cs start stop⟩

/-- Lowers a number by one. -/
def lower (depth : Nat) : Walk Nat :=
  ⟨[.lower depth], if depth = 0 then none else some (depth - 1)⟩

/-- Raises a number by one, to `n`. -/
def raise (n : Nat) : Walk Unit := ⟨[.raise n], some ()⟩

end Walk

/-- The offset of the first byte from `offset` on that does not satisfy `p`, or of the end. -/
def skipBytes (p : UInt8 → Bool) (bs : List UInt8) (offset : Nat) : Walk Nat :=
  if offset < bs.length then do
    if p (← Walk.look bs offset) then
      Walk.raise (offset + 1)
      skipBytes p bs (offset + 1)
    else pure offset
  else pure offset
termination_by bs.length - offset

end Text

/-- What a target says. -/
def Target.text : Target → String
  | .property path => path
  | .expression text => text

namespace Placeholder

open Text (Walk utf8Size bytes skipBytes)

/-! ## 2. Bytes that have a meaning -/

def spaceByte : UInt8 := 0x20
def openByte : UInt8 := 0x28
def closeByte : UInt8 := 0x29
def commaByte : UInt8 := 0x2C
def colonByte : UInt8 := 0x3A

/-- The offset behind the bytes from `offset` on that are skipped. -/
def skipGap (bs : List UInt8) (offset : Nat) : Walk Nat := skipBytes (· ≤ spaceByte) bs offset

/-- The offset of the first of the given bytes from `offset` on, or of the end. -/
def skipUntil (stops bs : List UInt8) (offset : Nat) : Walk Nat :=
  skipBytes (!stops.contains ·) bs offset

/-- Goes over bytes with their offsets, up to the closing parenthesis that leaves none open. -/
def closingAmong (depth : Nat) : List (UInt8 × Nat) → Walk (Option Nat)
  | [] => pure none
  | (byte, offset) :: rest =>
    if byte = openByte then do
      Walk.raise (depth + 1)
      closingAmong (depth + 1) rest
    else if byte = closeByte then do
      let depth ← Walk.lower depth
      if depth = 0 then pure (some offset) else closingAmong depth rest
    else closingAmong depth rest

/-- The offset of the closing parenthesis that answers the opening one at `offset`. -/
def closingOffset? (bs : List UInt8) (offset : Nat) : Walk (Option Nat) :=
  closingAmong 0 (bs.zipIdx.drop offset)

/-! ## 3. Contents -/

/-- The target that starts at an offset, and the offset behind it. -/
def targetAt (content : List Char) (start : Nat) : ExceptT Reason Walk (Target × Nat) :=
  if (bytes content)[start]? = some openByte then do
    match ← closingOffset? (bytes content) start with
    | none => throw .unbalanced
    | some close =>
      Walk.raise (start + 1)
      let inner ← Walk.slice content (start + 1) close
      Walk.raise (close + 1)
      return (.expression (trimmed inner), close + 1)
  else do
    let stop ← skipUntil [commaByte, colonByte] (bytes content) start
    let path ← Walk.slice content start stop
    return (.property (trimmed path), stop)

/-- The options from an offset on, which may stand behind the end. -/
def optionsAt (content : List Char) (start : Nat) : ExceptT Reason Walk (List (String × String)) :=
  if start < utf8Size content then do
    let raw ← Walk.slice content start (utf8Size content)
    ExceptT.mk (pure (readOptions (Text.splitAll ',' raw)))
  else return []

/-- What follows the target: a type behind a colon, options behind a comma, or nothing. -/
def restAt (content : List Char) (start : Nat) :
    ExceptT Reason Walk (Option String × List (String × String)) :=
  match (bytes content)[start]? with
  | none => return (none, [])
  | some byte =>
    if byte = colonByte then do
      Walk.raise (start + 1)
      let stop ← skipUntil [commaByte] (bytes content) (start + 1)
      let type ← Walk.slice content (start + 1) stop
      if (Text.trim type).isEmpty then throw (.missingType (start + 1))
      else do
        Walk.raise (stop + 1)
        let options ← optionsAt content (stop + 1)
        return (some (trimmed type), options)
    else if byte = commaByte then do
      Walk.raise (start + 1)
      let options ← optionsAt content (start + 1)
      return (none, options)
    else throw (.unexpected start)

/-- What a content says, read by offsets. -/
def parseOffsets (content : List Char) : ExceptT Reason Walk Placeholder := do
  let start ← skipGap (bytes content) 0
  let (target, next) ← targetAt content start
  if target.text.isEmpty then throw (.missingProperty start)
  else do
    let position ← skipGap (bytes content) next
    let (jdbcType, options) ← restAt content position
    return { target, jdbcType, options }

end Placeholder

end SqlTemplate
