import SqlTemplate.Text.Cursor
import SqlTemplate.Token

/-!
# Scanning by offsets

The scanner of delimited tokens as it goes over the bytes of a text: it keeps offsets, looks for a
delimiter from an offset on, looks at the byte in front of it and copies slices. It breaks off when a
slice is out of range.

* `Text.bytes`, `Text.findFrom?`: the bytes of a text, and where something stands in it;
* `Delimiters.contentAt`: the loop over the close delimiters of one token;
* `Delimiters.round`: what is done at one open delimiter;
* `Delimiters.scanOffsets`: the loop over the open delimiters.
-/

namespace SqlTemplate

namespace Text

/-! ## 1. Offsets -/

/-- The bytes of a text. -/
def bytes (cs : List Char) : List UInt8 := cs.flatMap String.utf8EncodeChar

/-- The byte of the character that escapes a delimiter. -/
def escapeByte : UInt8 := 0x5C

/-- Whether the byte in front of `place` is a backslash and does not stand in front of `low`; `none`
    when there is no such byte. -/
def escapedAt? (cs : List Char) (low place : Nat) : Option Bool :=
  if low < place then (bytes cs)[place - 1]?.map (· == escapeByte) else some false

/-- The offset of the first occurrence of `pattern` from `start` on, if there is one; `none` when
    there is no place with that offset. -/
def findFrom? (pattern cs : List Char) (start : Nat) : Option (Option Nat) :=
  (dropBytes? start cs).map fun rest =>
    (splitOnce pattern rest).map fun (before, _) => start + utf8Size before

theorem utf8Size_append (xs ys : List Char) : utf8Size (xs ++ ys) = utf8Size xs + utf8Size ys := by
  induction xs with
  | nil => exact (Nat.zero_add _).symm
  | cons c xs ih => rw [List.cons_append, utf8Size, utf8Size, ih, Nat.add_assoc]

theorem utf8Size_pos {cs : List Char} (h : cs ≠ []) : 0 < utf8Size cs := by
  cases cs with
  | nil => exact absurd rfl h
  | cons c cs => exact Nat.add_pos_left c.utf8Size_pos _

/-- What is left without some bytes is a text that stood behind them. -/
theorem eq_append_of_dropBytes? {cs rest : List Char} {size : Nat}
    (h : dropBytes? size cs = some rest) :
    ∃ before, cs = before ++ rest ∧ utf8Size before = size := by
  induction cs generalizing size with
  | nil =>
    cases size with
    | zero => exact ⟨[], Option.some.inj h, rfl⟩
    | succ size => cases h
  | cons c cs ih =>
    cases size with
    | zero => exact ⟨[], Option.some.inj h, rfl⟩
    | succ size =>
      rw [dropBytes?] at h
      split at h
      · rename_i hc
        obtain ⟨before, rfl, hsize⟩ := ih h
        exact ⟨c :: before, rfl, by rw [utf8Size, hsize]; omega⟩
      · cases h

/-- A separator stands in the text that it cuts. -/
theorem eq_append_of_splitOnce {pattern cs before after : List Char}
    (h : splitOnce pattern cs = some (before, after)) : cs = before ++ pattern ++ after := by
  induction cs generalizing before with
  | nil =>
    unfold splitOnce at h
    split at h
    · rename_i hp
      cases h
      rw [List.isEmpty_iff.mp hp]
      rfl
    · cases h
  | cons c cs ih =>
    unfold splitOnce at h
    cases hp : pattern.isPrefixOf? (c :: cs) with
    | some rest =>
      rw [hp] at h
      cases h
      exact eq_append_of_isPrefixOf? hp
    | none =>
      rw [hp] at h
      obtain ⟨⟨b, a⟩, hs, hb⟩ := Option.map_eq_some_iff.mp h
      cases hb
      rw [ih hs]
      rfl

/-- A place from which something has been looked for stands in the text. -/
theorem findFrom?_le {pattern cs : List Char} {start : Nat} {found : Option Nat}
    (h : findFrom? pattern cs start = some found) : start ≤ utf8Size cs := by
  obtain ⟨rest, hrest, -⟩ := Option.map_eq_some_iff.mp h
  obtain ⟨front, rfl, rfl⟩ := eq_append_of_dropBytes? hrest
  rw [utf8Size_append]
  exact Nat.le_add_right _ _

/-- What has been found lies in the text, behind the place from which it has been looked for. -/
theorem findFrom?_bounds {pattern cs : List Char} {start place : Nat}
    (h : findFrom? pattern cs start = some (some place)) :
    start ≤ place ∧ place + utf8Size pattern ≤ utf8Size cs := by
  obtain ⟨rest, hrest, h⟩ := Option.map_eq_some_iff.mp h
  obtain ⟨⟨before, after⟩, hs, rfl⟩ := Option.map_eq_some_iff.mp h
  obtain ⟨front, rfl, rfl⟩ := eq_append_of_dropBytes? hrest
  rw [eq_append_of_splitOnce hs]
  simp only [utf8Size_append]
  omega

end Text

namespace Delimiters

open Text (utf8Size slice? dropBytes? findFrom? escapedAt?)

/-! ## 2. One round -/

/-- The content of a token that goes on at `offset`, and the offset behind the token, if it is ever
    closed. `content` is what has been read of it; `none` when a slice is out of range. -/
def contentAt (d : Delimiters) (input content : List Char) (offset : Nat) :
    Option (Option (List Char × Nat)) :=
  match _h : findFrom? d.closing input offset with
  | none => none
  | some none => some none
  | some (some place) =>
    match escapedAt? input offset place with
    | none => none
    | some true =>
      match slice? input offset (place - 1) with
      | none => none
      | some front => d.contentAt input (content ++ front ++ d.closing) (place + utf8Size d.closing)
    | some false =>
      (slice? input offset place).map fun front =>
        some (content ++ front, place + utf8Size d.closing)
termination_by utf8Size input - offset
decreasing_by
  have := Text.findFrom?_bounds _h
  have := Text.utf8Size_pos d.closing_ne
  omega

/-- What is done at one open delimiter. -/
structure Round where
  /-- What is put out first. -/
  front : List Char
  /-- The content that the handler is asked for, if there is a complete token. -/
  content? : Option (List Char) := none
  /-- The offset at which the next round looks for an open delimiter. -/
  next : Nat

/-- What is done at the open delimiter that stands at `start`, when everything in front of `offset`
    has been put out; `none` when a slice is out of range. -/
def round (d : Delimiters) (input : List Char) (offset start : Nat) : Option Round := do
  let inside := start + utf8Size d.opening
  -- The byte in front of the delimiter may belong to the round before.
  if ← escapedAt? input 0 start then
    let front ← slice? input offset (start - 1)
    return { front := front ++ d.opening, next := inside }
  else
    let front ← slice? input offset start
    match ← d.contentAt input [] inside with
    | some (content, next) => return { front, content? := some content, next }
    | none =>
      let rest ← dropBytes? start input
      return { front := front ++ rest, next := utf8Size input }

/-- The text that one round puts out. -/
def putRound {m : Type → Type} [Monad m] (d : Delimiters)
    (handler : List Char → m (Option (List Char))) (r : Round) : m (List Char) :=
  match r.content? with
  | none => pure r.front
  | some content => do
    match ← handler content with
    | some replacement => pure (r.front ++ replacement)
    | none => pure (r.front ++ d.wrap content)

theorem contentAt_grows {d : Delimiters} {input content content' : List Char} {offset next : Nat}
    (h : d.contentAt input content offset = some (some (content', next))) : offset < next := by
  fun_induction d.contentAt input content offset with
  | case1 => cases h
  | case2 => cases h
  | case3 => cases h
  | case4 => cases h
  | case5 content offset place hf _ front _ ih =>
    have := Text.findFrom?_bounds hf
    have := ih h
    omega
  | case6 content offset place hf =>
    have := Text.findFrom?_bounds hf
    have := Text.utf8Size_pos d.closing_ne
    obtain ⟨front, -, hn⟩ := Option.map_eq_some_iff.mp h
    cases hn
    omega

theorem contentAt_le {d : Delimiters} {input content : List Char} {offset : Nat}
    {found : Option (List Char × Nat)} (h : d.contentAt input content offset = some found) :
    offset ≤ utf8Size input := by
  rw [contentAt] at h
  split at h
  · cases h
  · rename_i hf
    exact Text.findFrom?_le hf
  · rename_i hf
    exact Text.findFrom?_le hf

/-- **Every round goes ahead**: the next one starts behind the delimiter of this one. -/
theorem round_grows {d : Delimiters} {input : List Char} {offset start : Nat} {r : Round}
    (h : d.round input offset start = some r) : start < r.next := by
  have hopen := Text.utf8Size_pos d.opening_ne
  unfold round at h
  obtain ⟨escaped, -, h⟩ := Option.bind_eq_some_iff.mp h
  cases escaped with
  | true =>
    obtain ⟨front, -, h⟩ := Option.bind_eq_some_iff.mp h
    cases h
    exact Nat.lt_add_of_pos_right hopen
  | false =>
    obtain ⟨front, -, h⟩ := Option.bind_eq_some_iff.mp h
    obtain ⟨found, hc, h⟩ := Option.bind_eq_some_iff.mp h
    cases found with
    | none =>
      obtain ⟨rest, -, h⟩ := Option.bind_eq_some_iff.mp h
      cases h
      exact Nat.lt_of_lt_of_le (Nat.lt_add_of_pos_right hopen) (contentAt_le hc)
    | some found =>
      obtain ⟨content, next⟩ := found
      cases h
      have := contentAt_grows hc
      exact Nat.lt_of_le_of_lt (Nat.le_add_right _ _) this

/-! ## 3. The loop -/

/-- Scans from the open delimiter at `start` on, when `out` has been put out for everything in front
    of `offset`. -/
def scanFromOffset {m : Type → Type} [Monad m] (d : Delimiters)
    (handler : List Char → m (Option (List Char))) (input out : List Char) (offset start : Nat) :
    OptionT m (List Char) :=
  match _hr : d.round input offset start with
  | none => failure
  | some r =>
    match _hf : findFrom? d.opening input r.next with
    | none => do
      let _ ← OptionT.lift (d.putRound handler r)
      failure
    | some none => do
      let text ← OptionT.lift (d.putRound handler r)
      let rest ← OptionT.mk (pure (dropBytes? r.next input))
      return out ++ text ++ rest
    | some (some next) => do
      let text ← OptionT.lift (d.putRound handler r)
      d.scanFromOffset handler input (out ++ text) r.next next
termination_by utf8Size input - start
decreasing_by
  have := Text.findFrom?_bounds _hf
  have := Text.utf8Size_pos d.opening_ne
  have := round_grows _hr
  omega

/-- The text with each complete token replaced as the handler says; no text when a slice is out of
    range. -/
def scanOffsets {m : Type → Type} [Monad m] (d : Delimiters)
    (handler : List Char → m (Option (List Char))) (input : List Char) : OptionT m (List Char) :=
  match findFrom? d.opening input 0 with
  | none => failure
  | some none => pure input
  | some (some start) => d.scanFromOffset handler input [] 0 start

end Delimiters

end SqlTemplate
