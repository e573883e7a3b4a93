import SqlTemplate.Text.Pieces

/-!
# Delimited tokens in text

A text holds tokens such as `${...}` or `#{...}`: an open delimiter, a content and a close
delimiter. A backslash escapes a delimiter. Every dialect of placeholder in this library is read
by the two steps of this file.

* `pieces` cuts a text into its pieces: plain text, escaped open delimiters, complete tokens and,
  at the end, possibly a token that is never closed;
* `scan` renders the pieces again, asking a handler what to put in place of each token. The
  handler runs in any monad, so it may keep state or fail;
* `hasToken` says whether a text holds a complete token.
-/

namespace SqlTemplate

/-! ## 1. Delimiters -/

/-- The character that escapes a delimiter standing right after it. -/
def escapeChar : Char := '\\'

/-- An open and a close delimiter, neither of them empty. -/
structure Delimiters where
  opening : List Char
  closing : List Char
  opening_ne : opening ≠ [] := by decide
  closing_ne : closing ≠ [] := by decide

namespace Delimiters

/-- The delimiters of substitutions, `${` and `}`. -/
def substitution : Delimiters where
  opening := ['$', '{']
  closing := ['}']

/-- The delimiters of bind placeholders, `#{` and `}`. -/
def bind : Delimiters where
  opening := ['#', '{']
  closing := ['}']

/-- The delimiters spelled by two texts; `none` when one of them is empty. -/
def ofTexts? (opening closing : String) : Option Delimiters :=
  if h : opening.toList ≠ [] ∧ closing.toList ≠ [] then
    some ⟨opening.toList, closing.toList, h.1, h.2⟩
  else none

/-- The text of a token with the given content. -/
def wrap (d : Delimiters) (content : List Char) : List Char := d.opening ++ content ++ d.closing

end Delimiters

/-- Whether the last character of a list is the escape character. -/
def endsEscaped (cs : List Char) : Bool := cs.getLast? == some escapeChar

/-- A text begins with a non-empty list if it begins with its first character and goes on with the
    others. -/
theorem isPrefixOf?_cons_cons (a b : Char) (as bs : List Char) :
    (a :: as).isPrefixOf? (b :: bs) = if a == b then as.isPrefixOf? bs else none := rfl

/-- What follows a beginning is what the whole has without it. -/
theorem eq_append_of_isPrefixOf? {start cs rest : List Char}
    (h : start.isPrefixOf? cs = some rest) : cs = start ++ rest := by
  induction start generalizing cs with
  | nil => exact (Option.some.inj h)
  | cons a start ih =>
    cases cs with
    | nil => cases h
    | cons b cs =>
      rw [isPrefixOf?_cons_cons] at h
      split at h
      · rename_i hab
        rw [eq_of_beq hab, ih h, List.cons_append]
      · cases h

/-- What follows a non-empty beginning is shorter than the whole. -/
theorem length_rest_lt {start cs rest : List Char} (hne : start ≠ [])
    (h : start.isPrefixOf? cs = some rest) : rest.length < cs.length := by
  rw [eq_append_of_isPrefixOf? h, List.length_append]
  have := List.length_pos_iff.mpr hne
  omega

/-! ## 2. Pieces -/

/-- One piece of a text, as the delimiters cut it. -/
inductive Piece where
  /-- Text without delimiters, copied as it stands. -/
  | text (cs : List Char)
  /-- An open delimiter after a backslash: it stands for itself, and the backslash is gone. -/
  | escapedOpen
  /-- A complete token with its content, in which each escaped close delimiter has lost its
      backslash. -/
  | token (content : List Char)
  /-- A token that is never closed, from its open delimiter to the end of the text. -/
  | unterminated (cs : List Char)
  /-- The end of the text in front of an escaped open delimiter would lie before its start: the
      backslash belongs to the delimiter of the piece before. Only delimiters that end in a
      backslash make this piece. -/
  | overlap
  deriving DecidableEq, Repr

namespace Delimiters

/-- The content of a token, read up to its first unescaped close delimiter, and the text behind
    it; `none` when there is none. `content` is what has been read so far, and `escaped` says
    whether the character just read is a backslash of this token's content. -/
def readContent (d : Delimiters) (content : List Char) (escaped : Bool) (cs : List Char) :
    Option (List Char × List Char) :=
  match _h : d.closing.isPrefixOf? cs with
  | some rest =>
    if escaped then d.readContent (content.dropLast ++ d.closing) false rest
    else some (content, rest)
  | none =>
    match cs with
    | [] => none
    | c :: cs => d.readContent (content ++ [c]) (c == escapeChar) cs
termination_by cs.length
decreasing_by
  · exact length_rest_lt d.closing_ne _h
  · simp

/-- What stands behind a token's content is no longer than what stands from its start. -/
theorem readContent_length {d : Delimiters} {content cs content' rest : List Char}
    {escaped : Bool} (h : d.readContent content escaped cs = some (content', rest)) :
    rest.length ≤ cs.length := by
  fun_induction d.readContent content escaped cs with
  | case1 content cs rest' hp ih =>
    have := length_rest_lt d.closing_ne hp
    have := ih h
    omega
  | case2 content escaped cs rest' hp he =>
    simp only [Option.some.injEq, Prod.mk.injEq] at h
    have := length_rest_lt d.closing_ne hp
    rw [h.2] at this
    omega
  | case3 => cases h
  | case4 content escaped c cs hp ih =>
    have := ih h
    simp only [List.length_cons]
    omega

/-- The text in front of an escaped open delimiter, without the escaping backslash. -/
def beforeEscape (pending : List Char) : Piece :=
  if pending.isEmpty then .overlap else .text pending.dropLast

/-- Cuts `cs` into pieces. `pending` is the text read since the last piece, and `escaped` says
    whether the character in front of `cs` is a backslash, whatever piece it belongs to. -/
def piecesFrom (d : Delimiters) (pending : List Char) (escaped : Bool) (cs : List Char) :
    List Piece :=
  match _h : d.opening.isPrefixOf? cs with
  | some rest =>
    if escaped then
      beforeEscape pending :: .escapedOpen :: d.piecesFrom [] (endsEscaped d.opening) rest
    else
      match _hc : d.readContent [] false rest with
      | none => [.text pending, .unterminated (d.opening ++ rest)]
      | some (content, rest') =>
        .text pending :: .token content :: d.piecesFrom [] (endsEscaped d.closing) rest'
  | none =>
    match cs with
    | [] => [.text pending]
    | c :: cs => d.piecesFrom (pending ++ [c]) (c == escapeChar) cs
termination_by cs.length
decreasing_by
  · exact length_rest_lt d.opening_ne _h
  · exact Nat.lt_of_le_of_lt (readContent_length _hc) (length_rest_lt d.opening_ne _h)
  · simp

/-- The pieces of a text, in order. -/
def pieces (d : Delimiters) (cs : List Char) : List Piece := d.piecesFrom [] false cs

/-- The contents of the complete tokens of a text, in order. -/
def contents (d : Delimiters) (cs : List Char) : List (List Char) :=
  (d.pieces cs).filterMap fun
    | .token content => some content
    | _ => none

/-- Whether the text in front of every escaped open delimiter ends where or after it starts. -/
def inRange (d : Delimiters) (cs : List Char) : Bool := !(d.pieces cs).contains .overlap

/-! ## 3. Scanning -/

/-- What stands in place of a piece. A token that the handler declines is put together again from
    its content. -/
def renderPiece {m : Type → Type} [Monad m] (d : Delimiters)
    (handler : List Char → m (Option (List Char))) : Piece → m (List Char)
  | .text cs => pure cs
  | .escapedOpen => pure d.opening
  | .unterminated cs => pure cs
  | .overlap => pure []
  | .token content => do
    match ← handler content with
    | some replacement => pure replacement
    | none => pure (d.wrap content)

/-- What stands in place of a list of pieces. The handler is asked once per token, in order. -/
def renderPieces {m : Type → Type} [Monad m] (d : Delimiters)
    (handler : List Char → m (Option (List Char))) : List Piece → m (List Char)
  | [] => pure []
  | piece :: rest => do
    let first ← d.renderPiece handler piece
    let others ← d.renderPieces handler rest
    pure (first ++ others)

/-- The text with each complete token replaced as the handler says. -/
def scan {m : Type → Type} [Monad m] (d : Delimiters)
    (handler : List Char → m (Option (List Char))) (cs : List Char) : m (List Char) :=
  d.renderPieces handler (d.pieces cs)

/-- `scan` with a handler that neither fails nor keeps state. -/
def replace (d : Delimiters) (handler : List Char → Option (List Char)) (cs : List Char) :
    List Char :=
  d.scan (m := Id) handler cs

/-- Whether the text holds a complete token. -/
def hasToken (d : Delimiters) (cs : List Char) : Bool := !(d.contents cs).isEmpty

end Delimiters

end SqlTemplate
