import SqlTemplate.Proofs.Seams

/-!
# Scanning in one pass

Scanning without a list of pieces: one loop goes from open delimiter to open delimiter. It copies
the text in front of one, looks for the close delimiter in an inner loop, asks the handler at once
and goes on behind the token. What the inner loop has gathered is dropped when there is no close
delimiter.

* `IsFirst`: a delimiter stands behind a text and nowhere earlier;
* `splitOnce_eq_some`, `splitOnce_eq_none`: looking for a delimiter finds the first one;
* `Delimiters.findContent`, `Delimiters.scanLoop`: the two loops;
* `Delimiters.scanLoop_eq`: the loop is `scan`, for all delimiters, monads and handlers.
-/

namespace SqlTemplate

open Text (splitOnce)

/-! ## 1. The first occurrence of a delimiter -/

/-- Whether `pattern` stands between `before` and `after` and begins nowhere earlier. -/
def IsFirst (pattern before after : List Char) : Prop :=
  ∀ xs ys, xs ++ pattern ++ ys = before ++ pattern ++ after → before.length ≤ xs.length

section First

variable {pattern before after before' after' cs : List Char}

/-- A text has one first occurrence. -/
theorem IsFirst.unique (h : IsFirst pattern before after) (h' : IsFirst pattern before' after')
    (e : before ++ pattern ++ after = before' ++ pattern ++ after') :
    before = before' ∧ after = after' := by
  have hlen : before.length = before'.length := Nat.le_antisymm (h _ _ e.symm) (h' _ _ e)
  rw [List.append_assoc, List.append_assoc] at e
  obtain ⟨hb, ha⟩ := List.append_inj e hlen
  exact ⟨hb, List.append_cancel_left ha⟩

theorem isPrefixOf?_append (pattern rest : List Char) :
    pattern.isPrefixOf? (pattern ++ rest) = some rest := by
  induction pattern with
  | nil => rfl
  | cons c pattern ih => rw [List.cons_append, isPrefixOf?_cons_cons, beq_self_eq_true, if_pos rfl, ih]

/-- Where a pattern does not stand at the start, its first occurrence is that of the tail. -/
theorem isFirst_cons {c : Char} (h : pattern.isPrefixOf? (c :: (before ++ pattern ++ after)) = none) :
    IsFirst pattern (c :: before) after ↔ IsFirst pattern before after := by
  constructor
  · intro hf xs ys e
    have := hf (c :: xs) ys (congrArg (c :: ·) e)
    exact Nat.le_of_succ_le_succ this
  · intro hf xs ys e
    cases xs with
    | nil =>
      have e : pattern ++ ys = c :: (before ++ pattern ++ after) := e
      rw [← e, isPrefixOf?_append] at h
      cases h
    | cons x xs => exact Nat.succ_le_succ (hf xs ys (List.cons.inj e).2)

/-- What has been found is the first occurrence. -/
theorem isFirst_of_splitOnce (hp : pattern ≠ []) (h : splitOnce pattern cs = some (before, after)) :
    cs = before ++ pattern ++ after ∧ IsFirst pattern before after := by
  induction cs generalizing before with
  | nil =>
    unfold splitOnce at h
    rw [if_neg (by rwa [List.isEmpty_iff])] at h
    cases h
  | cons c cs ih =>
    unfold splitOnce at h
    cases hpre : pattern.isPrefixOf? (c :: cs) with
    | some rest =>
      rw [hpre] at h
      cases h
      exact ⟨eq_append_of_isPrefixOf? hpre, fun xs _ _ => Nat.zero_le xs.length⟩
    | none =>
      rw [hpre] at h
      obtain ⟨⟨b, a⟩, hs, hb⟩ := Option.map_eq_some_iff.mp h
      cases hb
      obtain ⟨rfl, hf⟩ := ih hs
      exact ⟨rfl, (isFirst_cons hpre).mpr hf⟩

theorem splitOnce_eq_none (hp : pattern ≠ []) : splitOnce pattern cs = none ↔ ¬ pattern <:+: cs := by
  constructor
  · intro h
    induction cs with
    | nil => exact fun hi => hp (List.infix_nil.mp hi)
    | cons c cs ih =>
      unfold splitOnce at h
      cases hpre : pattern.isPrefixOf? (c :: cs) with
      | some rest =>
        rw [hpre] at h
        cases h
      | none =>
        rw [hpre] at h
        intro hi
        rcases List.infix_cons_iff.mp hi with ⟨rest, hstart⟩ | hi
        · rw [← hstart, isPrefixOf?_append] at hpre
          cases hpre
        · exact ih (Option.map_eq_none_iff.mp h) hi
  · intro h
    cases hs : splitOnce pattern cs with
    | none => rfl
    | some found =>
      obtain ⟨before, after⟩ := found
      obtain ⟨rfl, -⟩ := isFirst_of_splitOnce hp hs
      exact absurd ⟨before, after, rfl⟩ h

/-- **Looking for a delimiter finds its first occurrence.** -/
theorem splitOnce_eq_some (hp : pattern ≠ []) :
    splitOnce pattern cs = some (before, after) ↔
      cs = before ++ pattern ++ after ∧ IsFirst pattern before after := by
  refine ⟨isFirst_of_splitOnce hp, ?_⟩
  rintro ⟨rfl, hf⟩
  cases hs : splitOnce pattern (before ++ pattern ++ after) with
  | none => exact absurd ⟨before, after, rfl⟩ ((splitOnce_eq_none hp).mp hs)
  | some found =>
    obtain ⟨before', after'⟩ := found
    obtain ⟨e, hf'⟩ := isFirst_of_splitOnce hp hs
    obtain ⟨rfl, rfl⟩ := hf.unique hf' e
    rfl

theorem length_splitOnce (hp : pattern ≠ []) (h : splitOnce pattern cs = some (before, after)) :
    after.length < cs.length := by
  obtain ⟨rfl, -⟩ := isFirst_of_splitOnce hp h
  have := List.length_pos_iff.mpr hp
  simp only [List.length_append]
  omega

end First

/-! ## 2. The loops -/

/-- Whether the character in front of a delimiter is a backslash. `escaped` says so of the character
    in front of the text that it has been looked for in. -/
def isEscapedBehind (escaped : Bool) (before : List Char) : Bool :=
  if before.isEmpty then escaped else endsEscaped before

theorem isEscapedBehind_cons (escaped : Bool) (c : Char) (cs : List Char) :
    isEscapedBehind escaped (c :: cs) = isEscapedBehind (c == escapeChar) cs := by
  cases cs with
  | nil => rfl
  | cons a cs => rfl

theorem isEscapedBehind_false (before : List Char) :
    isEscapedBehind false before = endsEscaped before := by
  cases before with
  | nil => rfl
  | cons c cs => rfl

namespace Delimiters

/-- The inner loop: the content up to the first close delimiter that is not escaped, and the text
    behind it. `read` is what stands in front of the last escaped one, which is part of it. -/
def findContent (d : Delimiters) (read cs : List Char) : Option (List Char × List Char) :=
  match _h : splitOnce d.closing cs with
  | none => none
  | some (before, rest) =>
    if endsEscaped before then d.findContent (read ++ before.dropLast ++ d.closing) rest
    else some (read ++ before, rest)
termination_by cs.length
decreasing_by exact length_splitOnce d.closing_ne _h

theorem length_findContent {d : Delimiters} {read cs content rest : List Char}
    (h : d.findContent read cs = some (content, rest)) : rest.length < cs.length := by
  fun_induction d.findContent read cs with
  | case1 => cases h
  | case2 read cs before rest' hs _ ih => exact Nat.lt_trans (ih h) (length_splitOnce d.closing_ne hs)
  | case3 read cs before rest' hs _ =>
    cases h
    exact length_splitOnce d.closing_ne hs

/-- The outer loop. `out` is what has been put out so far, `cs` the text that is left, and `escaped`
    says whether the character in front of it is a backslash. -/
def scanFrom {m : Type → Type} [Monad m] (d : Delimiters)
    (handler : List Char → m (Option (List Char))) (out : List Char) (escaped : Bool)
    (cs : List Char) : m (List Char) :=
  match _h : splitOnce d.opening cs with
  | none => pure (out ++ cs)
  | some (before, rest) =>
    if isEscapedBehind escaped before then
      d.scanFrom handler (out ++ before.dropLast ++ d.opening) (endsEscaped d.opening) rest
    else
      match _hc : d.findContent [] rest with
      | none => pure (out ++ before ++ (d.opening ++ rest))
      | some (content, rest') => do
        match ← handler content with
        | some replacement =>
          d.scanFrom handler (out ++ before ++ replacement) (endsEscaped d.closing) rest'
        | none =>
          d.scanFrom handler (out ++ before ++ d.wrap content) (endsEscaped d.closing) rest'
termination_by cs.length
decreasing_by
  · exact length_splitOnce d.opening_ne _h
  · exact Nat.lt_trans (length_findContent _hc) (length_splitOnce d.opening_ne _h)
  · exact Nat.lt_trans (length_findContent _hc) (length_splitOnce d.opening_ne _h)

/-- The text with each complete token replaced as the handler says, in one pass. -/
def scanLoop {m : Type → Type} [Monad m] (d : Delimiters)
    (handler : List Char → m (Option (List Char))) (cs : List Char) : m (List Char) :=
  d.scanFrom handler [] false cs

/-! ## 3. From one delimiter to the next -/

variable {d : Delimiters} {pending read cs before rest : List Char} {escaped : Bool}

/-- A text without an open delimiter is one piece. -/
theorem piecesFrom_last (h : splitOnce d.opening cs = none) :
    d.piecesFrom pending escaped cs = [.text (pending ++ cs)] := by
  induction cs generalizing pending escaped with
  | nil => rw [piecesFrom_nil, List.append_nil]
  | cons c cs ih =>
    unfold splitOnce at h
    cases hp : d.opening.isPrefixOf? (c :: cs) with
    | some rest =>
      rw [hp] at h
      cases h
    | none =>
      rw [hp] at h
      rw [piecesFrom_cons hp, ih (Option.map_eq_none_iff.mp h), List.append_assoc,
        List.singleton_append]

/-- What stands in front of the next open delimiter is pending when it is reached. -/
theorem piecesFrom_next (h : splitOnce d.opening cs = some (before, rest)) :
    d.piecesFrom pending escaped cs =
      d.piecesFrom (pending ++ before) (isEscapedBehind escaped before) (d.opening ++ rest) := by
  induction cs generalizing pending escaped before with
  | nil =>
    unfold splitOnce at h
    rw [if_neg (by rw [List.isEmpty_iff]; exact d.opening_ne)] at h
    cases h
  | cons c cs ih =>
    unfold splitOnce at h
    cases hp : d.opening.isPrefixOf? (c :: cs) with
    | some rest' =>
      rw [hp] at h
      cases h
      rw [← eq_append_of_isPrefixOf? hp, List.append_nil]
      rfl
    | none =>
      rw [hp] at h
      obtain ⟨⟨b, a⟩, hs, hb⟩ := Option.map_eq_some_iff.mp h
      cases hb
      rw [piecesFrom_cons hp, ih hs, isEscapedBehind_cons, List.append_assoc, List.singleton_append]

/-- A character at which the token does not close is read. -/
theorem readContent_cons {c : Char} (h : d.closing.isPrefixOf? (c :: cs) = none) :
    d.readContent read escaped (c :: cs) = d.readContent (read ++ [c]) (c == escapeChar) cs := by
  rw [readContent]
  split
  · rename_i hs
    rw [h] at hs
    cases hs
  · rfl

theorem readContent_close (h : d.closing.isPrefixOf? cs = some rest) :
    d.readContent read escaped cs =
      if escaped then d.readContent (read.dropLast ++ d.closing) false rest
      else some (read, rest) := by
  rw [readContent]
  split
  · rename_i hs
    rw [h] at hs
    cases hs
    rfl
  · rename_i hs
    rw [h] at hs
    cases hs

/-- A content without a close delimiter is never closed. -/
theorem readContent_last (h : splitOnce d.closing cs = none) : d.readContent read escaped cs = none := by
  induction cs generalizing read escaped with
  | nil =>
    rw [readContent]
    split
    · rename_i hs
      have hl := length_rest_lt d.closing_ne hs
      cases hl
    · rfl
  | cons c cs ih =>
    unfold splitOnce at h
    cases hp : d.closing.isPrefixOf? (c :: cs) with
    | some rest =>
      rw [hp] at h
      cases h
    | none =>
      rw [hp] at h
      rw [readContent_cons hp]
      exact ih (Option.map_eq_none_iff.mp h)

theorem readContent_next (h : splitOnce d.closing cs = some (before, rest)) :
    d.readContent read escaped cs =
      d.readContent (read ++ before) (isEscapedBehind escaped before) (d.closing ++ rest) := by
  induction cs generalizing read escaped before with
  | nil =>
    unfold splitOnce at h
    rw [if_neg (by rw [List.isEmpty_iff]; exact d.closing_ne)] at h
    cases h
  | cons c cs ih =>
    unfold splitOnce at h
    cases hp : d.closing.isPrefixOf? (c :: cs) with
    | some rest' =>
      rw [hp] at h
      cases h
      rw [← eq_append_of_isPrefixOf? hp, List.append_nil]
      rfl
    | none =>
      rw [hp] at h
      obtain ⟨⟨b, a⟩, hs, hb⟩ := Option.map_eq_some_iff.mp h
      cases hb
      rw [readContent_cons hp, ih hs, isEscapedBehind_cons, List.append_assoc, List.singleton_append]

/-- **The inner loop reads the content of a token.** -/
theorem findContent_eq (read cs : List Char) : d.findContent read cs = d.readContent read false cs := by
  fun_induction d.findContent read cs with
  | case1 read cs hs => rw [readContent_last hs]
  | case2 read cs before rest hs he ih =>
    have hne : before ≠ [] := by
      rintro rfl
      cases he
    rw [ih, readContent_next hs, isEscapedBehind_false, he,
      readContent_close (isPrefixOf?_append d.closing rest), if_pos rfl,
      List.dropLast_append_of_ne_nil hne]
  | case3 read cs before rest hs he =>
    rw [readContent_next hs, isEscapedBehind_false, Bool.eq_false_iff.mpr he,
      readContent_close (isPrefixOf?_append d.closing rest), if_neg Bool.false_ne_true]

/-! ## 4. The loop is the scanner -/

section Scan

variable {m : Type → Type} [Monad m] [LawfulMonad m] (handler : List Char → m (Option (List Char)))

/-- A piece that is no token puts its text out and does not ask the handler. -/
theorem renderPieces_plain {p : Piece} (h : p.content? = none) (ps : List Piece) :
    d.renderPieces handler (p :: ps) = (d.fill id p ++ ·) <$> d.renderPieces handler ps := by
  have hp : d.renderPiece handler p = pure (d.fill id p) := by
    cases p with
    | text cs => rfl
    | escapedOpen => rfl
    | token content => cases h
    | unterminated cs => rfl
    | overlap => rfl
  rw [renderPieces, hp, pure_bind, map_eq_pure_bind]

theorem renderPieces_token (content : List Char) (ps : List Piece) :
    d.renderPieces handler (.token content :: ps) = (do
      let reply ← handler content
      (reply.getD (d.wrap content) ++ ·) <$> d.renderPieces handler ps) := by
  rw [renderPieces]
  show (handler content >>= _) >>= _ = _
  rw [bind_assoc]
  refine bind_congr fun reply => ?_
  cases reply with
  | some replacement => rw [pure_bind, map_eq_pure_bind]; rfl
  | none => rw [pure_bind, map_eq_pure_bind]; rfl

theorem fill_beforeEscape (pending : List Char) :
    d.fill id (beforeEscape pending) = pending.dropLast := by
  cases pending with
  | nil => rfl
  | cons c cs => rfl

/-- What the outer loop adds to its output is what the pieces of the text that is left put out. -/
theorem scanFrom_eq (out : List Char) (escaped : Bool) (cs : List Char) :
    d.scanFrom handler out escaped cs =
      (out ++ ·) <$> d.renderPieces handler (d.piecesFrom [] escaped cs) := by
  fun_induction d.scanFrom handler out escaped cs with
  | case1 out escaped cs hs =>
    rw [piecesFrom_last hs, renderPieces_plain handler rfl, renderPieces, map_pure, map_pure]
    simp only [fill, List.nil_append, List.append_nil]
  | case2 out escaped cs before rest hs he ih =>
    rw [ih, piecesFrom_next hs, he, List.nil_append,
      piecesFrom_escaped (isPrefixOf?_append d.opening rest),
      renderPieces_plain handler (beforeEscape_content? before), renderPieces_plain handler rfl,
      fill_beforeEscape]
    simp only [Functor.map_map, fill, List.append_assoc]
  | case3 out escaped cs before rest hs he hc =>
    rw [findContent_eq] at hc
    rw [piecesFrom_next hs, Bool.eq_false_iff.mpr he, List.nil_append,
      piecesFrom_unterminated (isPrefixOf?_append d.opening rest) hc,
      renderPieces_plain handler rfl, renderPieces_plain handler rfl, renderPieces]
    simp only [map_pure, fill, List.append_assoc, List.append_nil]
  | case4 out escaped cs before rest hs he content rest' hc ih ih' =>
    rw [findContent_eq] at hc
    rw [piecesFrom_next hs, Bool.eq_false_iff.mpr he, List.nil_append,
      piecesFrom_closed (isPrefixOf?_append d.opening rest) hc,
      renderPieces_plain handler rfl, renderPieces_token]
    simp only [map_bind, Functor.map_map]
    refine bind_congr fun reply => ?_
    cases reply with
    | some replacement =>
      refine (ih replacement).trans ?_
      simp only [fill, Option.getD_some, List.append_assoc]
    | none =>
      refine ih'.trans ?_
      simp only [fill, Option.getD_none, List.append_assoc]

/-- **The loop scans**: it puts out what the pieces of the text put out, and asks the handler the
    same questions in the same order. -/
theorem scanLoop_eq (cs : List Char) : d.scanLoop handler cs = d.scan handler cs := by
  unfold scanLoop scan pieces
  rw [scanFrom_eq]
  exact id_map' _

end Scan

end Delimiters

end SqlTemplate
