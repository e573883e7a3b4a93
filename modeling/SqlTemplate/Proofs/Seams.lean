import Mathlib.Data.List.Basic
import SqlTemplate.Proofs.Tokens

/-!
# Placeholders across seams

What becomes of the placeholders of texts that are put one after the other, with whatever escapes
stand in them.

* `piecesFrom_cons` and its neighbours: what cutting a text into pieces does at each place;
* `contentsFrom`: the contents that are found from a place on;
* `IsClosed`, `contentsFrom_append`: the contents of two texts are those of the first and then those
  of the second one, if the first one leaves no placeholder open and none arises at the seam;
* `contents_trim`: blank ends hold no placeholders;
* `contents_text`: the contents of the fragments of a scope are those of its text.
-/

namespace SqlTemplate

open Text (isBlank)

/-! ## 1. One place at a time -/

namespace Delimiters

variable {d : Delimiters} {pending cs rest : List Char} {escaped : Bool}

theorem piecesFrom_nil : d.piecesFrom pending escaped [] = [.text pending] := by
  rw [piecesFrom]
  split
  · rename_i h
    have hl := length_rest_lt d.opening_ne h
    cases hl
  · rfl

/-- A character at which no token opens is pending. -/
theorem piecesFrom_cons {c : Char} (h : d.opening.isPrefixOf? (c :: cs) = none) :
    d.piecesFrom pending escaped (c :: cs) = d.piecesFrom (pending ++ [c]) (c == escapeChar) cs := by
  rw [piecesFrom]
  split
  · rename_i hs
    rw [h] at hs
    cases hs
  · rfl

/-- An open delimiter behind a backslash stands for itself. -/
theorem piecesFrom_escaped (h : d.opening.isPrefixOf? cs = some rest) :
    d.piecesFrom pending true cs =
      beforeEscape pending :: .escapedOpen :: d.piecesFrom [] (endsEscaped d.opening) rest := by
  rw [piecesFrom]
  split
  · rename_i hs
    rw [h] at hs
    cases hs
    rfl
  · rename_i hs
    rw [h] at hs
    cases hs

theorem piecesFrom_unterminated (h : d.opening.isPrefixOf? cs = some rest)
    (hr : d.readContent [] false rest = none) :
    d.piecesFrom pending false cs = [.text pending, .unterminated (d.opening ++ rest)] := by
  rw [piecesFrom]
  split
  · rename_i hs
    rw [h] at hs
    cases hs
    rw [if_neg Bool.false_ne_true]
    split
    · rfl
    · rename_i hn
      rw [hr] at hn
      cases hn
  · rename_i hs
    rw [h] at hs
    cases hs

theorem piecesFrom_closed {content rest' : List Char} (h : d.opening.isPrefixOf? cs = some rest)
    (hr : d.readContent [] false rest = some (content, rest')) :
    d.piecesFrom pending false cs =
      .text pending :: .token content :: d.piecesFrom [] (endsEscaped d.closing) rest' := by
  rw [piecesFrom]
  split
  · rename_i hs
    rw [h] at hs
    cases hs
    rw [if_neg Bool.false_ne_true]
    split
    · rename_i hn
      rw [hr] at hn
      cases hn
    · rename_i hn
      rw [hr] at hn
      cases hn
      rfl
  · rename_i hs
    rw [h] at hs
    cases hs

end Delimiters

theorem piecesFrom_char {c : Char} {cs : List Char} (h : opens (c :: cs) = false)
    (pending : List Char) (escaped : Bool) :
    Delimiters.bind.piecesFrom pending escaped (c :: cs) =
      Delimiters.bind.piecesFrom (pending ++ [c]) (c == escapeChar) cs :=
  Delimiters.piecesFrom_cons (isPrefixOf?_of_not_opens h)

/-! ## 2. Reading a content -/

section Reading

variable {read cs content rest : List Char} {escaped : Bool}

theorem readContent_nil : Delimiters.bind.readContent read escaped [] = none := by
  rw [Delimiters.readContent]
  rfl

/-- A brace behind a backslash belongs to the content, in place of the backslash. -/
theorem readContent_escaped : Delimiters.bind.readContent read true ('}' :: cs) =
    Delimiters.bind.readContent (read.dropLast ++ ['}']) false cs := by
  rw [Delimiters.readContent]
  rfl

theorem readContent_brace :
    Delimiters.bind.readContent read false ('}' :: cs) = some (read, cs) := by
  rw [Delimiters.readContent]
  rfl

theorem readContent_char {c : Char} (h : c ≠ '}') :
    Delimiters.bind.readContent read escaped (c :: cs) =
      Delimiters.bind.readContent (read ++ [c]) (c == escapeChar) cs := by
  have hp : Delimiters.bind.closing.isPrefixOf? (c :: cs) = none := by
    show List.isPrefixOf? ('}' :: []) _ = none
    rw [isPrefixOf?_cons_cons, beq_false_of_ne fun e => h e.symm]
    rfl
  rw [Delimiters.readContent]
  split
  · rename_i hs
    rw [hp] at hs
    cases hs
  · rfl

/-- What stands behind a content is an end of the text. -/
theorem readContent_suffix (h : Delimiters.bind.readContent read escaped cs = some (content, rest)) :
    ∃ before, cs = before ++ rest := by
  induction cs generalizing read escaped with
  | nil =>
    rw [readContent_nil] at h
    cases h
  | cons c cs ih =>
    by_cases hc : c = '}'
    · subst hc
      cases escaped with
      | true =>
        rw [readContent_escaped] at h
        obtain ⟨before, rfl⟩ := ih h
        exact ⟨'}' :: before, rfl⟩
      | false =>
        rw [readContent_brace] at h
        cases h
        exact ⟨['}'], rfl⟩
    · rw [readContent_char hc] at h
      obtain ⟨before, rfl⟩ := ih h
      exact ⟨c :: before, rfl⟩

/-- A content that is closed is read in the same way when the text goes on. -/
theorem readContent_append
    (h : Delimiters.bind.readContent read escaped cs = some (content, rest)) (ys : List Char) :
    Delimiters.bind.readContent read escaped (cs ++ ys) = some (content, rest ++ ys) := by
  induction cs generalizing read escaped with
  | nil =>
    rw [readContent_nil] at h
    cases h
  | cons c cs ih =>
    rw [List.cons_append]
    by_cases hc : c = '}'
    · subst hc
      cases escaped with
      | true =>
        rw [readContent_escaped] at h ⊢
        exact ih h
      | false =>
        rw [readContent_brace] at h ⊢
        cases h
        rfl
    · rw [readContent_char hc] at h ⊢
      exact ih h

/-- A content that is never closed is not closed by a text without braces. -/
theorem readContent_append_none (h : Delimiters.bind.readContent read escaped cs = none)
    {ys : List Char} (hy : '}' ∉ ys) :
    Delimiters.bind.readContent read escaped (cs ++ ys) = none := by
  induction cs generalizing read escaped with
  | nil =>
    rw [List.nil_append]
    clear h
    induction ys generalizing read escaped with
    | nil => exact readContent_nil
    | cons y ys ih =>
      rw [readContent_char fun e => hy (e ▸ List.mem_cons_self)]
      exact ih fun h => hy (List.mem_cons_of_mem y h)
  | cons c cs ih =>
    rw [List.cons_append]
    by_cases hc : c = '}'
    · subst hc
      cases escaped with
      | true =>
        rw [readContent_escaped] at h ⊢
        exact ih h
      | false =>
        rw [readContent_brace] at h
        cases h
    · rw [readContent_char hc] at h ⊢
      exact ih h

end Reading

/-! ## 3. The contents from a place on -/

/-- The contents of the tokens from a place on. `escaped` says whether a backslash stands in front
    of it. -/
def contentsFrom (escaped : Bool) (cs : List Char) : List (List Char) :=
  (Delimiters.bind.piecesFrom [] escaped cs).filterMap Piece.content?

section Contents

variable {cs rest : List Char} {escaped : Bool}

theorem contents_eq_contentsFrom (cs : List Char) :
    Delimiters.bind.contents cs = contentsFrom false cs := rfl

theorem beforeEscape_content? (pending : List Char) :
    (Delimiters.beforeEscape pending).content? = none := by
  unfold Delimiters.beforeEscape
  split
  · rfl
  · rfl

/-- What stands in front of a place does not matter to the contents behind it. -/
theorem filterMap_piecesFrom (pending : List Char) (escaped : Bool) (cs : List Char) :
    (Delimiters.bind.piecesFrom pending escaped cs).filterMap Piece.content? =
      contentsFrom escaped cs := by
  have free (pending pending' : List Char) :
      (Delimiters.bind.piecesFrom pending escaped cs).filterMap Piece.content? =
        (Delimiters.bind.piecesFrom pending' escaped cs).filterMap Piece.content? := by
    fun_induction Delimiters.bind.piecesFrom pending escaped cs generalizing pending' with
    | case1 pending cs rest hp _ =>
      rw [Delimiters.piecesFrom_escaped hp, List.filterMap_cons_none (beforeEscape_content? _),
        List.filterMap_cons_none (beforeEscape_content? _)]
    | case2 pending escaped cs rest hp he hn =>
      obtain rfl : escaped = false := Bool.eq_false_iff.mpr he
      rw [Delimiters.piecesFrom_unterminated hp hn]
      rfl
    | case3 pending escaped cs rest hp he content rest' hr _ =>
      obtain rfl : escaped = false := Bool.eq_false_iff.mpr he
      rw [Delimiters.piecesFrom_closed hp hr]
      rfl
    | case4 pending escaped _ =>
      rw [Delimiters.piecesFrom_nil]
      rfl
    | case5 pending escaped c cs hp ih =>
      rw [Delimiters.piecesFrom_cons hp]
      exact ih (pending' ++ [c])
  exact free pending []

theorem contentsFrom_nil : contentsFrom escaped [] = [] := by
  unfold contentsFrom
  rw [Delimiters.piecesFrom_nil]
  rfl

/-- Where no placeholder opens there is none. -/
theorem contentsFrom_char {c : Char} (h : opens (c :: cs) = false) :
    contentsFrom escaped (c :: cs) = contentsFrom (c == escapeChar) cs := by
  unfold contentsFrom
  rw [piecesFrom_char h]
  exact filterMap_piecesFrom _ _ _

/-- A backslash matters to a placeholder that opens right behind it, and to nothing else. -/
theorem contentsFrom_of_not_opens (h : opens cs = false) :
    contentsFrom escaped cs = contentsFrom false cs := by
  cases cs with
  | nil => rw [contentsFrom_nil, contentsFrom_nil]
  | cons c cs => rw [contentsFrom_char h, contentsFrom_char h]

/-- An escaped placeholder does not open. -/
theorem contentsFrom_escaped :
    contentsFrom true ('#' :: '{' :: rest) = contentsFrom false rest := by
  unfold contentsFrom
  rw [Delimiters.piecesFrom_escaped (isPrefixOf?_opening rest)]
  rfl

theorem contentsFrom_closed {content rest' : List Char}
    (h : Delimiters.bind.readContent [] false rest = some (content, rest')) :
    contentsFrom false ('#' :: '{' :: rest) = content :: contentsFrom false rest' := by
  unfold contentsFrom
  rw [Delimiters.piecesFrom_closed (isPrefixOf?_opening rest) h]
  rfl

theorem contentsFrom_unterminated
    (h : Delimiters.bind.readContent [] false rest = none) :
    contentsFrom false ('#' :: '{' :: rest) = [] := by
  unfold contentsFrom
  rw [Delimiters.piecesFrom_unterminated (isPrefixOf?_opening rest) h]
  rfl

end Contents

/-! ## 4. Seams -/

/-- Whether a text closes every placeholder that it opens. -/
def IsClosed (cs : List Char) : Prop :=
  ∀ rest, Piece.unterminated rest ∉ Delimiters.bind.pieces cs

/-- A text that is one placeholder closes it. -/
theorem isClosed_of_token {cs : List Char} (content : List Char)
    (h : Delimiters.bind.pieces cs = [.text [], .token content, .text []]) : IsClosed cs := by
  intro rest hmem
  rw [h] at hmem
  rcases List.mem_cons.mp hmem with hp | hmem
  · cases hp
  rcases List.mem_cons.mp hmem with hp | hmem
  · cases hp
  cases List.mem_singleton.mp hmem

/-- Whether nothing arises where `ys` follows `xs`: no placeholder opens across the seam, and none
    that opens behind it is escaped in front of it. -/
structure Seamless (xs ys : List Char) : Prop where
  opening : xs.getLast? = some '#' → ys.head? ≠ some '{'
  escape : xs.getLast? = some escapeChar → opens ys = false

theorem getLast?_append_of {xs ys : List Char} {c : Char} (h : ys.getLast? = some c) :
    (xs ++ ys).getLast? = some c := by
  rw [List.getLast?_append, h]
  rfl

/-- A seam is that of the last part in front of it. -/
theorem Seamless.of_append (before : List Char) {xs ys : List Char}
    (h : Seamless (before ++ xs) ys) :
    Seamless xs ys where
  opening hx := h.opening (getLast?_append_of hx)
  escape hx := h.escape (getLast?_append_of hx)

/-- A space keeps two texts apart. -/
theorem Seamless.space (xs ys : List Char) : Seamless xs (' ' :: ys) where
  opening _ h := by cases h
  escape _ := rfl

/-- A placeholder opens with the two characters of the opening. -/
theorem eq_of_opening {xs rest : List Char}
    (h : Delimiters.bind.opening.isPrefixOf? xs = some rest) : xs = '#' :: '{' :: rest :=
  eq_append_of_isPrefixOf? h

theorem not_opens_of_opening {xs : List Char}
    (h : Delimiters.bind.opening.isPrefixOf? xs = none) : opens xs = false := by
  refine not_opens ?_
  rintro rest rfl
  cases h

/-- No placeholder opens at a character when none does before the text goes on, unless it opens
    across the seam. -/
theorem not_opens_append {c : Char} {xs ys : List Char} (h : opens (c :: xs) = false)
    (hs : Seamless (c :: xs) ys) : opens (c :: (xs ++ ys)) = false := by
  cases xs with
  | cons x xs => exact h
  | nil =>
    rw [List.nil_append, opens_cons]
    by_cases hc : c = '#'
    · rw [hc] at hs
      rw [Bool.and_eq_false_iff]
      exact .inr (beq_false_of_ne (hs.opening rfl))
    · rw [beq_false_of_ne hc, Bool.false_and]

theorem contentsFrom_append {pending xs ys : List Char} {escaped : Bool}
    (hc : ∀ rest, Piece.unterminated rest ∉ Delimiters.bind.piecesFrom pending escaped xs)
    (hs : Seamless xs ys) (he : escaped = true → xs = [] → opens ys = false) :
    contentsFrom escaped (xs ++ ys) = contentsFrom escaped xs ++ contentsFrom false ys := by
  fun_induction Delimiters.bind.piecesFrom pending escaped xs with
  | case1 pending xs rest hp ih =>
    obtain rfl := eq_of_opening hp
    have hr := ih (fun r hmem => hc r (List.mem_cons_of_mem _ (List.mem_cons_of_mem _ hmem)))
      (Seamless.of_append ['#', '{'] hs) (fun h => by cases h)
    show contentsFrom true ('#' :: '{' :: (rest ++ ys)) = _
    rw [contentsFrom_escaped, contentsFrom_escaped]
    exact hr
  | case2 pending escaped xs rest hp _ hn =>
    exact absurd (List.mem_cons_of_mem _ List.mem_cons_self) (hc _)
  | case3 pending escaped xs rest hp hf content rest' hr ih =>
    obtain rfl : escaped = false := Bool.eq_false_iff.mpr hf
    obtain rfl := eq_of_opening hp
    obtain ⟨before, rfl⟩ := readContent_suffix hr
    have htail := ih
      (fun r hmem => hc r (List.mem_cons_of_mem _ (List.mem_cons_of_mem _ hmem)))
      (Seamless.of_append ('#' :: '{' :: before) hs) (fun h => by cases h)
    show contentsFrom false ('#' :: '{' :: (before ++ rest' ++ ys)) = _
    rw [contentsFrom_closed (readContent_append hr ys), contentsFrom_closed hr]
    exact congrArg (content :: ·) htail
  | case4 pending escaped _ =>
    rw [List.nil_append, contentsFrom_nil, List.nil_append]
    cases escaped with
    | false => rfl
    | true => exact contentsFrom_of_not_opens (he rfl rfl)
  | case5 pending escaped c xs hp ih =>
    have ho := not_opens_of_opening hp
    rw [List.cons_append, contentsFrom_char (not_opens_append ho hs), contentsFrom_char ho]
    refine ih hc (Seamless.of_append [c] hs) fun h hx => ?_
    subst hx
    exact hs.escape (congrArg some (eq_of_beq h))

/-- **The contents of two texts, one after the other**, are those of the first and then those of the
    second one, if the first one leaves nothing open and nothing arises at the seam. -/
theorem contents_append {xs ys : List Char} (hc : IsClosed xs) (hs : Seamless xs ys) :
    Delimiters.bind.contents (xs ++ ys) =
      Delimiters.bind.contents xs ++ Delimiters.bind.contents ys :=
  contentsFrom_append hc hs fun h => by cases h

/-- A text in which no placeholder opens is one piece. -/
theorem pieces_of_not_occursIn {cs : List Char}
    (h : Text.occursIn Delimiters.bind.opening cs = false) :
    ∃ text, Delimiters.bind.pieces cs = [.text text] := by
  have plain (pending : List Char) (escaped : Bool) :
      ∃ text, Delimiters.bind.piecesFrom pending escaped cs = [.text text] := by
    induction cs generalizing pending escaped with
    | nil => exact ⟨pending, Delimiters.piecesFrom_nil⟩
    | cons c cs ih =>
      have hc : opens (c :: cs) = false := by
        refine not_opens ?_
        rintro rest e
        rw [e] at h
        cases h
      obtain ⟨text, ht⟩ := ih (Bool.or_eq_false_iff.mp h).2 (pending ++ [c]) (c == escapeChar)
      exact ⟨text, by rw [piecesFrom_char hc, ht]⟩
  exact plain [] false

theorem isClosed_of_not_occursIn {cs : List Char}
    (h : Text.occursIn Delimiters.bind.opening cs = false) : IsClosed cs := by
  obtain ⟨text, ht⟩ := pieces_of_not_occursIn h
  intro rest hmem
  rw [ht] at hmem
  cases List.mem_singleton.mp hmem

/-! ## 5. Blank ends -/

theorem not_opens_of_blank {c : Char} (h : isBlank c = true) (cs : List Char) :
    opens (c :: cs) = false := by
  refine not_opens ?_
  rintro rest e
  cases e
  cases h

theorem contents_cons_blank {c : Char} (h : isBlank c = true) (cs : List Char) :
    Delimiters.bind.contents (c :: cs) = Delimiters.bind.contents cs := by
  have hc : (c == escapeChar) = false := by
    refine beq_false_of_ne ?_
    rintro rfl
    cases h
  rw [contents_eq_contentsFrom, contentsFrom_char (not_opens_of_blank h cs), hc]
  rfl

/-- A character at the end that neither opens nor closes a placeholder does not matter. -/
theorem contentsFrom_concat {c : Char} (ho : c ≠ '{') (hc : c ≠ '}') (pending : List Char)
    (escaped : Bool) (cs : List Char) :
    contentsFrom escaped (cs ++ [c]) = contentsFrom escaped cs := by
  have hbrace : '}' ∉ [c] := fun h => hc (List.mem_singleton.mp h).symm
  have hseam (xs : List Char) : Seamless xs [c] :=
    ⟨fun _ h => ho (Option.some.inj h), fun _ => not_opens fun rest e => by cases e⟩
  fun_induction Delimiters.bind.piecesFrom pending escaped cs with
  | case1 pending cs rest hp ih =>
    obtain rfl := eq_of_opening hp
    show contentsFrom true ('#' :: '{' :: (rest ++ [c])) = _
    rw [contentsFrom_escaped, contentsFrom_escaped]
    exact ih
  | case2 pending escaped cs rest hp hf hn =>
    obtain rfl : escaped = false := Bool.eq_false_iff.mpr hf
    obtain rfl := eq_of_opening hp
    show contentsFrom false ('#' :: '{' :: (rest ++ [c])) = _
    rw [contentsFrom_unterminated (readContent_append_none hn hbrace),
      contentsFrom_unterminated hn]
  | case3 pending escaped cs rest hp hf content rest' hr ih =>
    obtain rfl : escaped = false := Bool.eq_false_iff.mpr hf
    obtain rfl := eq_of_opening hp
    show contentsFrom false ('#' :: '{' :: (rest ++ [c])) = _
    rw [contentsFrom_closed (readContent_append hr [c]), contentsFrom_closed hr]
    exact congrArg (content :: ·) ih
  | case4 pending escaped _ =>
    rw [List.nil_append, contentsFrom_char ((hseam [escapeChar]).escape rfl), contentsFrom_nil,
      contentsFrom_nil]
  | case5 pending escaped a cs hp ih =>
    have hopen := not_opens_of_opening hp
    rw [List.cons_append, contentsFrom_char (not_opens_append hopen (hseam _)),
      contentsFrom_char hopen]
    exact ih

theorem contents_concat_blank {c : Char} (h : isBlank c = true) (cs : List Char) :
    Delimiters.bind.contents (cs ++ [c]) = Delimiters.bind.contents cs := by
  refine contentsFrom_concat ?_ ?_ [] false cs
  · rintro rfl
    cases h
  · rintro rfl
    cases h

/-- **Blank ends hold no placeholders** and close none. -/
theorem contents_trim (cs : List Char) :
    Delimiters.bind.contents (Text.trim cs) = Delimiters.bind.contents cs :=
  Text.apply_trim (fun _ cs h => contents_cons_blank h cs)
    (fun _ cs h => contents_concat_blank h cs) cs

/-! ## 6. Fragments -/

/-- The contents of a fragment. -/
def fragmentContents (fragment : String) : List (List Char) :=
  Delimiters.bind.contents fragment.toList

theorem contents_joinWith {parts : List (List Char)} (h : ∀ p ∈ parts, IsClosed p) :
    Delimiters.bind.contents (Text.joinWith [' '] parts) =
      parts.flatMap Delimiters.bind.contents := by
  induction parts with
  | nil => exact contentsFrom_nil
  | cons p parts ih =>
    have hp := h p List.mem_cons_self
    cases parts with
    | nil =>
      show Delimiters.bind.contents p = Delimiters.bind.contents p ++ []
      rw [List.append_nil]
    | cons q parts =>
      have hr := ih fun r hr => h r (List.mem_cons_of_mem p hr)
      show Delimiters.bind.contents (p ++ [' '] ++ Text.joinWith [' '] (q :: parts)) = _
      rw [List.append_assoc, List.singleton_append, contents_append hp (.space _ _),
        contents_cons_blank rfl, hr]
      rfl

theorem toList_text (s : Scope) :
    s.text.toList = Text.trim (Text.joinWith [' '] (s.fragments.map String.toList)) := by
  unfold Scope.text Text.trimText Text.joinTexts
  rw [String.toList_ofList, String.toList_ofList]
  rfl

/-- **The contents of the text of a scope** are those of its fragments, one after the other, if each
    of them closes its placeholders. -/
theorem contents_text {s : Scope} (h : ∀ f ∈ s.fragments, IsClosed f.toList) :
    Delimiters.bind.contents s.text.toList = s.fragments.flatMap fragmentContents := by
  have hp : ∀ p ∈ s.fragments.map String.toList, IsClosed p := by
    intro p hp
    obtain ⟨f, hf, rfl⟩ := List.mem_map.mp hp
    exact h f hf
  rw [toList_text, contents_trim, contents_joinWith hp, List.flatMap_map]
  rfl

end SqlTemplate
