import SqlTemplate.Scope

/-!
# Tokens of a text

What the pieces of a text say about the text, for replacing and for counting its tokens.

* `Delimiters.replace_eq`, `Delimiters.scan_of_contents`: what scanning does, piece by piece;
* `Layer.isBlankText_renameFragment`: renaming the loop variables of a fragment leaves a blank one
  blank and any other one not blank;
* `opens`: a bind placeholder opens at the start of a text.
-/

namespace SqlTemplate

open Text (isBlank)

/-! ## 1. What scanning puts together -/

/-- The content of a piece that is a token. -/
def Piece.content? : Piece → Option (List Char)
  | .token content => some content
  | _ => none

namespace Delimiters

variable (d : Delimiters)

/-- What stands in place of a piece when `f` says what stands in place of a content. -/
def fill (f : List Char → List Char) : Piece → List Char
  | .text cs => cs
  | .escapedOpen => d.opening
  | .token content => f content
  | .unterminated cs => cs
  | .overlap => []

theorem contents_eq (cs : List Char) : d.contents cs = (d.pieces cs).filterMap Piece.content? := rfl

/-- Replacing every token puts the pieces together again, with new text for the contents. -/
theorem replace_eq (f : List Char → List Char) (cs : List Char) :
    d.replace (fun content => some (f content)) cs = (d.pieces cs).flatMap (d.fill f) := by
  have h (ps : List Piece) :
      d.renderPieces (m := Id) (fun content => some (f content)) ps = ps.flatMap (d.fill f) := by
    induction ps with
    | nil => rfl
    | cons p ps ih =>
      rw [List.flatMap_cons, ← ih]
      cases p with
      | text cs => rfl
      | escapedOpen => rfl
      | token content => rfl
      | unterminated cs => rfl
      | overlap => rfl
  exact h (d.pieces cs)

/-- Without tokens the handler is never asked. -/
theorem scan_of_contents {m : Type → Type} [Monad m] [LawfulMonad m]
    (handler : List Char → m (Option (List Char))) {cs : List Char} (h : d.contents cs = []) :
    d.scan handler cs = pure ((d.pieces cs).flatMap (d.fill id)) := by
  rw [contents_eq] at h
  unfold scan
  generalize d.pieces cs = ps at h ⊢
  induction ps with
  | nil => rfl
  | cons p ps ih =>
    have plain (hp : p.content? = none) (hr : d.renderPiece handler p = pure (d.fill id p)) :
        d.renderPieces handler (p :: ps) = pure ((p :: ps).flatMap (d.fill id)) := by
      rw [List.filterMap_cons_none hp] at h
      rw [renderPieces, hr, pure_bind, ih h, pure_bind, List.flatMap_cons]
    cases p with
    | token content => cases h
    | text cs => exact plain rfl rfl
    | escapedOpen => exact plain rfl rfl
    | unterminated cs => exact plain rfl rfl
    | overlap => exact plain rfl rfl

/-! ## 2. Blank texts -/

/-- Replacing the tokens of a text does not change whether it is blank, since neither an open
    delimiter nor what replaces a token is. -/
theorem fill_all_isBlank {f : List Char → List Char} (hd : d.opening.all isBlank = false)
    (hf : ∀ content, (f content).all isBlank = false) (pending : List Char) (escaped : Bool)
    (cs : List Char) :
    ((d.piecesFrom pending escaped cs).flatMap (d.fill f)).all isBlank =
      (pending ++ cs).all isBlank := by
  fun_induction d.piecesFrom pending escaped cs with
  | case1 pending cs rest hp ih =>
    rw [eq_append_of_isPrefixOf? hp]
    simp only [List.flatMap_cons, fill, List.all_append, hd, Bool.false_and, Bool.and_false]
  | case2 pending escaped cs rest hp _ _ =>
    rw [eq_append_of_isPrefixOf? hp]
    simp only [List.flatMap_cons, fill, List.all_append, hd, Bool.false_and, Bool.and_false]
  | case3 pending escaped cs rest hp _ content rest' _ _ =>
    rw [eq_append_of_isPrefixOf? hp]
    simp only [List.flatMap_cons, fill, List.all_append, hd, hf, Bool.false_and, Bool.and_false]
  | case4 pending escaped _ =>
    simp only [List.flatMap_cons, List.flatMap_nil, fill, List.append_nil]
  | case5 pending escaped c cs _ ih =>
    rw [ih, List.append_assoc, List.singleton_append]

end Delimiters

theorem wrap_not_blank (content : List Char) :
    (Delimiters.bind.wrap content).all isBlank = false := rfl

/-- **Renaming a fragment does not change whether it is blank.** -/
theorem Layer.isBlankText_renameFragment (item index : Option String) (suffix : Nat)
    (fragment : String) :
    Text.isBlankText (renameFragment item index suffix fragment) = Text.isBlankText fragment := by
  unfold renameFragment Text.isBlankText
  rw [String.toList_ofList, Delimiters.replace_eq, Delimiters.pieces,
    Delimiters.bind.fill_all_isBlank rfl fun _ => wrap_not_blank _]
  rfl

/-! ## 3. Where placeholders open -/

/-- Whether a bind placeholder opens at the start of a text. -/
def opens (cs : List Char) : Bool := cs.head? == some '#' && cs.tail.head? == some '{'

theorem opens_cons (c : Char) (cs : List Char) :
    opens (c :: cs) = (c == '#' && cs.head? == some '{') := rfl

/-- A placeholder opens with the two characters of the opening and nowhere else. -/
theorem not_opens {cs : List Char} (h : ∀ rest, cs ≠ '#' :: '{' :: rest) : opens cs = false := by
  match cs with
  | [] => rfl
  | [c] => exact Bool.and_false _
  | c :: c' :: rest =>
    rw [opens_cons, List.head?_cons, Bool.and_eq_false_iff]
    by_cases hc : c = '#'
    · refine .inr (beq_false_of_ne fun hc' => ?_)
      exact h rest (by rw [hc, Option.some.inj hc'])
    · exact .inl (beq_false_of_ne hc)

theorem isPrefixOf?_opening (rest : List Char) :
    Delimiters.bind.opening.isPrefixOf? ('#' :: '{' :: rest) = some rest := rfl

theorem isPrefixOf?_of_not_opens {cs : List Char} (h : opens cs = false) :
    Delimiters.bind.opening.isPrefixOf? cs = none := by
  cases hp : Delimiters.bind.opening.isPrefixOf? cs with
  | none => rfl
  | some rest =>
    rw [eq_append_of_isPrefixOf? hp] at h
    cases h

theorem wrap_append (content cs : List Char) :
    Delimiters.bind.wrap content ++ cs = '#' :: '{' :: (content ++ '}' :: cs) := by
  show '#' :: '{' :: (content ++ ['}'] ++ cs) = _
  rw [List.append_assoc]
  rfl

end SqlTemplate
