import Mathlib.Algebra.GroupWithZero.Nat
import SqlTemplate.Backend
import SqlTemplate.Proofs.Run
import SqlTemplate.Proofs.Seams

/-!
# Renaming and the pieces of a fragment

A loop cuts every fragment of its body into pieces, renames its variables and puts the pieces
together again; the loop around it does the same with what comes out, and so does finalization. A
backslash in front of a delimiter is gone after the first time.

* `IsUnescaped`: a text in which no delimiter is escaped;
* `length_refill`: putting the pieces of a text together again loses one character per escape;
* `pieces_replace`: a text without escapes keeps its pieces when its contents are replaced;
* `Layer.count_rename`, `Layer.endsEscaped_rename`: renaming neither brings in a delimiter nor a
  backslash at the end;
* `Layer.pieces_renameFragment_iff`: renaming keeps the pieces of exactly the fragments without
  escapes;
* `Layer.pieces_passThrough`: so do loops inside loops;
* `pieces_kept`: both, for all fragments and scopes.
-/

namespace SqlTemplate

/-! ## 1. Escapes -/

namespace Piece

/-- A piece with another content, if it is a token. -/
def mapContent (f : List Char → List Char) : Piece → Piece
  | .token content => .token (f content)
  | p => p

/-- The number of backslashes that cutting has taken away from a piece. -/
def escapes : Piece → Nat
  | .escapedOpen => 1
  | .token content => content.count '}'
  | _ => 0

theorem fill_mapContent (f : List Char → List Char) (p : Piece) :
    Delimiters.bind.fill Delimiters.bind.wrap (p.mapContent f) =
      Delimiters.bind.fill (fun content => Delimiters.bind.wrap (f content)) p := by
  cases p with
  | text cs => rfl
  | escapedOpen => rfl
  | token content => rfl
  | unterminated cs => rfl
  | overlap => rfl

theorem escapes_mapContent {f : List Char → List Char}
    (hf : ∀ content, (f content).count '}' = content.count '}') (p : Piece) :
    (p.mapContent f).escapes = p.escapes := by
  cases p with
  | text cs => rfl
  | escapedOpen => rfl
  | token content => exact hf content
  | unterminated cs => rfl
  | overlap => rfl

theorem mapContent_mapContent (f g : List Char → List Char) (p : Piece) :
    (p.mapContent f).mapContent g = p.mapContent fun content => g (f content) := by
  cases p with
  | text cs => rfl
  | escapedOpen => rfl
  | token content => rfl
  | unterminated cs => rfl
  | overlap => rfl

theorem mapContent_id (p : Piece) : p.mapContent (fun content => content) = p := by
  cases p with
  | text cs => rfl
  | escapedOpen => rfl
  | token content => rfl
  | unterminated cs => rfl
  | overlap => rfl

end Piece

/-- Whether no delimiter of a text is escaped: neither an opening in its plain text nor a brace in a
    content. -/
def IsUnescaped (cs : List Char) : Prop := ∀ p ∈ Delimiters.bind.pieces cs, p.escapes = 0

/-! ## 2. Contents as they are written -/

theorem endsEscaped_concat (cs : List Char) (c : Char) :
    endsEscaped (cs ++ [c]) = (c == escapeChar) := by
  unfold endsEscaped
  rw [List.getLast?_concat]
  rfl

theorem eq_concat_of_endsEscaped {cs : List Char} (h : endsEscaped cs = true) :
    ∃ init, cs = init ++ [escapeChar] := by
  rcases List.eq_nil_or_concat cs with rfl | ⟨init, c, rfl⟩
  · cases h
  · rw [List.concat_eq_append, endsEscaped_concat] at h
    obtain rfl := eq_of_beq h
    exact ⟨init, List.concat_eq_append⟩

/-- How a content comes from `written`, the text in front of its closing brace, when `read` has been
    read before: each brace in it has lost a backslash. -/
structure ReadFrom (read written content : List Char) : Prop where
  braces : content.count '}' = read.count '}' + written.count '}'
  length : content.length + written.count '}' = read.length + written.length
  plain : '}' ∉ written → content = read ++ written
  ending : endsEscaped content = false
  escapes : endsEscaped read = false → escapeChar ∉ written → '}' ∉ written

theorem readContent_written {read cs content rest : List Char}
    (h : Delimiters.bind.readContent read (endsEscaped read) cs = some (content, rest)) :
    ∃ written, cs = written ++ '}' :: rest ∧ ReadFrom read written content := by
  induction cs generalizing read with
  | nil =>
    rw [readContent_nil] at h
    cases h
  | cons c cs ih =>
    by_cases hc : c = '}'
    · subst hc
      cases he : endsEscaped read with
      | true =>
        obtain ⟨init, rfl⟩ := eq_concat_of_endsEscaped he
        have hend : false = endsEscaped (init ++ ['}']) := by
          rw [endsEscaped_concat]
          rfl
        rw [he, readContent_escaped, List.dropLast_concat, hend] at h
        obtain ⟨written, rfl, hr⟩ := ih h
        have hbrace : ['}'].count '}' = 1 := rfl
        have hescape : [escapeChar].count '}' = 0 := rfl
        have hbraces := hr.braces
        have hlength := hr.length
        rw [List.count_append] at hbraces
        rw [List.length_append, List.length_singleton] at hlength
        refine ⟨'}' :: written, rfl, ?_, ?_, fun hmem => absurd List.mem_cons_self hmem,
          hr.ending, fun hread => ?_⟩
        · rw [List.count_append, List.count_cons_self]
          omega
        · rw [List.length_append, List.length_singleton, List.count_cons_self, List.length_cons]
          omega
        · rw [hread] at he
          cases he
      | false =>
        rw [he, readContent_brace] at h
        cases h
        exact ⟨[], rfl, rfl, rfl, fun _ => (List.append_nil _).symm, he,
          fun _ _ => List.not_mem_nil⟩
    · rw [readContent_char hc, ← endsEscaped_concat read c] at h
      obtain ⟨written, rfl, hr⟩ := ih h
      have hcount : [c].count '}' = 0 := List.count_eq_zero.mpr fun hmem =>
        hc (List.mem_singleton.mp hmem).symm
      have hbraces := hr.braces
      have hlength := hr.length
      rw [List.count_append, hcount] at hbraces
      rw [List.length_append, List.length_singleton] at hlength
      have hwritten : (c :: written).count '}' = written.count '}' :=
        List.count_cons_of_ne hc
      refine ⟨c :: written, rfl, ?_, ?_, fun hmem => ?_, hr.ending, fun _ hmem => ?_⟩
      · rw [hwritten]
        exact hbraces
      · rw [hwritten, List.length_cons]
        omega
      · rw [hr.plain fun h => hmem (List.mem_cons_of_mem c h), List.append_assoc]
        rfl
      · have hescape : endsEscaped (read ++ [c]) = false := by
          rw [endsEscaped_concat]
          exact beq_false_of_ne fun e => hmem (e ▸ List.mem_cons_self)
        have hbrace := hr.escapes hescape fun h => hmem (List.mem_cons_of_mem c h)
        exact fun h => (List.mem_cons.mp h).elim (fun e => hc e.symm) hbrace

/-- A content without braces that does not end in a backslash is read as it is written. -/
theorem readContent_plain {content : List Char} (h : '}' ∉ content) (rest : List Char)
    {read : List Char} (he : endsEscaped (read ++ content) = false) :
    Delimiters.bind.readContent read (endsEscaped read) (content ++ '}' :: rest) =
      some (read ++ content, rest) := by
  induction content generalizing read with
  | nil =>
    rw [List.append_nil] at he ⊢
    rw [he, List.nil_append, readContent_brace]
  | cons c content ih =>
    have hs : read ++ c :: content = read ++ [c] ++ content := by
      rw [List.append_assoc, List.singleton_append]
    rw [hs] at he ⊢
    rw [List.cons_append, readContent_char fun e => h (e ▸ List.mem_cons_self),
      ← endsEscaped_concat read c]
    exact ih (fun hmem => h (List.mem_cons_of_mem c hmem)) he

/-! ## 3. Putting pieces together again -/

/-- A text that is made of the pieces of `cs` is shorter by what has been escaped. -/
theorem length_refill {pending cs : List Char} {escaped : Bool} (he : escaped = true → pending ≠ []) :
    ((Delimiters.bind.piecesFrom pending escaped cs).flatMap
        (Delimiters.bind.fill Delimiters.bind.wrap)).length +
      ((Delimiters.bind.piecesFrom pending escaped cs).map Piece.escapes).sum =
      pending.length + cs.length := by
  fun_induction Delimiters.bind.piecesFrom pending escaped cs with
  | case1 pending cs rest hp ih =>
    obtain rfl := eq_of_opening hp
    obtain ⟨init, c, rfl⟩ := List.eq_nil_or_concat pending |>.resolve_left (he rfl)
    have hb : Delimiters.beforeEscape (init.concat c) = .text init := by
      rw [List.concat_eq_append]
      unfold Delimiters.beforeEscape
      rw [List.isEmpty_eq_false_iff.mpr (List.append_ne_nil_of_right_ne_nil _ (List.cons_ne_nil _ _)),
        List.dropLast_concat]
      rfl
    have hr := ih fun h => absurd h (by decide)
    rw [hb]
    simp only [List.flatMap_cons, List.map_cons, List.sum_cons, List.length_append,
      Delimiters.fill, Piece.escapes, List.length_nil, List.length_cons,
      List.length_concat] at hr ⊢
    have ho : Delimiters.bind.opening.length = 2 := rfl
    omega
  | case2 pending escaped cs rest hp hf hn =>
    obtain rfl := eq_of_opening hp
    simp only [List.flatMap_cons, List.flatMap_nil, List.map_cons, List.map_nil, List.sum_cons,
      List.sum_nil, List.length_append, Delimiters.fill, Piece.escapes, List.length_nil,
      List.length_cons]
    have ho : Delimiters.bind.opening.length = 2 := rfl
    omega
  | case3 pending escaped cs rest hp hf content rest' hr ih =>
    obtain rfl := eq_of_opening hp
    obtain ⟨written, rfl, hw⟩ := readContent_written hr
    have hbraces := hw.braces
    have hlength := hw.length
    have htail := ih fun h => absurd h (by decide)
    have hwrap : (Delimiters.bind.wrap content).length = content.length + 3 := by
      show ('#' :: '{' :: content ++ ['}']).length = _
      rw [List.length_append]
      rfl
    simp only [List.flatMap_cons, List.map_cons, List.sum_cons, List.length_append,
      Delimiters.fill, Piece.escapes, List.length_nil, List.length_cons, List.count_nil,
      hwrap] at hbraces hlength htail ⊢
    omega
  | case4 pending escaped _ =>
    simp only [List.flatMap_cons, List.flatMap_nil, List.map_cons, List.map_nil, List.sum_cons,
      List.sum_nil, List.length_append, Delimiters.fill, Piece.escapes, List.length_nil,
      Nat.add_zero]
  | case5 pending escaped c cs hp ih =>
    rw [ih fun _ => List.append_ne_nil_of_right_ne_nil _ (List.cons_ne_nil _ _),
      List.length_append, List.length_singleton, List.length_cons]
    omega

/-- A text that its pieces make up again is unescaped. -/
theorem isUnescaped_of_refill {cs : List Char}
    (h : (Delimiters.bind.pieces cs).flatMap (Delimiters.bind.fill Delimiters.bind.wrap) = cs) :
    IsUnescaped cs := by
  have hlength : ((Delimiters.bind.pieces cs).flatMap
        (Delimiters.bind.fill Delimiters.bind.wrap)).length +
      ((Delimiters.bind.pieces cs).map Piece.escapes).sum = [].length + cs.length :=
    length_refill fun h => by cases h
  rw [h, List.length_nil, Nat.zero_add, Nat.add_eq_left,
    List.sum_eq_zero_iff_forall_eq_nat] at hlength
  intro p hp
  exact hlength p.escapes (List.mem_map_of_mem hp)

theorem escapes_piecesFrom {pending cs : List Char} {escaped : Bool} (hf : escaped = false)
    (he : escapeChar ∉ cs) : ∀ p ∈ Delimiters.bind.piecesFrom pending escaped cs, p.escapes = 0 := by
  fun_induction Delimiters.bind.piecesFrom pending escaped cs with
  | case1 => cases hf
  | case2 =>
    intro p hp
    rcases List.mem_cons.mp hp with rfl | hp
    · rfl
    · rw [List.mem_singleton.mp hp]
      rfl
  | case3 pending escaped cs rest hp _ content rest' hr ih =>
    obtain rfl := eq_of_opening hp
    obtain ⟨written, rfl, hw⟩ := readContent_written hr
    have hwritten : escapeChar ∉ written := fun h =>
      he (List.mem_cons_of_mem _ (List.mem_cons_of_mem _ (List.mem_append_left _ h)))
    have hrest : escapeChar ∉ rest' := fun h =>
      he (List.mem_cons_of_mem _ (List.mem_cons_of_mem _
        (List.mem_append_right _ (List.mem_cons_of_mem _ h))))
    have hcontent : content.count '}' = 0 := by
      rw [hw.braces, List.count_nil, List.count_eq_zero.mpr (hw.escapes rfl hwritten)]
    intro p hp
    rcases List.mem_cons.mp hp with rfl | hp
    · rfl
    rcases List.mem_cons.mp hp with rfl | hp
    · exact hcontent
    · exact ih rfl hrest p hp
  | case4 =>
    intro p hp
    rw [List.mem_singleton.mp hp]
    rfl
  | case5 pending escaped c cs _ ih =>
    exact ih (beq_false_of_ne fun e => he (e ▸ List.mem_cons_self))
      fun h => he (List.mem_cons_of_mem c h)

/-- A text without backslashes is unescaped. -/
theorem isUnescaped_of_not_mem {cs : List Char} (he : escapeChar ∉ cs) : IsUnescaped cs :=
  escapes_piecesFrom rfl he

/-! ## 4. Replacing contents -/

/-- Whether a way of replacing contents keeps the number of their braces and brings no backslash to
    their end. -/
structure KeepsEnds (f : List Char → List Char) : Prop where
  braces : ∀ content, (f content).count '}' = content.count '}'
  ending : ∀ content, endsEscaped content = false → endsEscaped (f content) = false

theorem piecesFrom_replace {f : List Char → List Char} (hf : KeepsEnds f) {pending cs : List Char}
    {escaped : Bool}
    (hu : ∀ p ∈ Delimiters.bind.piecesFrom pending escaped cs, p.escapes = 0) :
    ∃ cs', (Delimiters.bind.piecesFrom pending escaped cs).flatMap
          (Delimiters.bind.fill fun content => Delimiters.bind.wrap (f content)) =
        pending ++ cs' ∧ cs'.head? = cs.head? ∧
      Delimiters.bind.piecesFrom pending escaped cs' =
        (Delimiters.bind.piecesFrom pending escaped cs).map (Piece.mapContent f) := by
  fun_induction Delimiters.bind.piecesFrom pending escaped cs with
  | case1 pending cs rest hp _ =>
    exact absurd (hu .escapedOpen (List.mem_cons_of_mem _ List.mem_cons_self)) (by decide)
  | case2 pending escaped cs rest hp hf' hn =>
    obtain rfl : escaped = false := Bool.eq_false_iff.mpr hf'
    obtain rfl := eq_of_opening hp
    refine ⟨'#' :: '{' :: rest, ?_, rfl, Delimiters.piecesFrom_unterminated hp hn⟩
    simp only [List.flatMap_cons, List.flatMap_nil, Delimiters.fill, List.append_nil]
    rfl
  | case3 pending escaped cs rest hp hf' content rest' hr ih =>
    obtain rfl : escaped = false := Bool.eq_false_iff.mpr hf'
    obtain rfl := eq_of_opening hp
    obtain ⟨written, -, hw⟩ := readContent_written hr
    obtain ⟨cs', htext, -, hpieces⟩ := ih fun p hmem =>
      hu p (List.mem_cons_of_mem _ (List.mem_cons_of_mem _ hmem))
    have hcount : content.count '}' = 0 :=
      hu (.token content) (List.mem_cons_of_mem _ List.mem_cons_self)
    have hbrace : '}' ∉ f content := List.count_eq_zero.mp ((hf.braces content).trans hcount)
    have hread : Delimiters.bind.readContent [] false (f content ++ '}' :: cs') =
        some (f content, cs') := readContent_plain hbrace cs' (hf.ending content hw.ending)
    refine ⟨Delimiters.bind.wrap (f content) ++ cs', ?_, ?_, ?_⟩
    · rw [List.flatMap_cons, List.flatMap_cons, htext]
      rfl
    · rw [wrap_append]
      rfl
    · rw [wrap_append, Delimiters.piecesFrom_closed (isPrefixOf?_opening _) hread, List.map_cons,
        List.map_cons]
      exact congrArg (fun ps => Piece.text pending :: .token (f content) :: ps) hpieces
  | case4 pending escaped _ =>
    refine ⟨[], ?_, rfl, ?_⟩
    · rw [List.flatMap_cons]
      rfl
    · rw [Delimiters.piecesFrom_nil]
      rfl
  | case5 pending escaped c cs hp ih =>
    obtain ⟨cs', htext, hhead, hpieces⟩ := ih hu
    refine ⟨c :: cs', ?_, rfl, ?_⟩
    · rw [htext, List.append_assoc, List.singleton_append]
    · have ho : opens (c :: cs') = false := by
        rw [opens_cons, hhead, ← opens_cons]
        exact not_opens_of_opening hp
      rw [piecesFrom_char ho, hpieces]

/-- **A text without escapes keeps its pieces when its contents are replaced.** -/
theorem pieces_replace {f : List Char → List Char} (hf : KeepsEnds f) {cs : List Char}
    (hu : IsUnescaped cs) :
    Delimiters.bind.pieces (Delimiters.bind.replace
        (fun content => some (Delimiters.bind.wrap (f content))) cs) =
      (Delimiters.bind.pieces cs).map (Piece.mapContent f) := by
  obtain ⟨cs', htext, -, hpieces⟩ := piecesFrom_replace hf hu
  rw [Delimiters.replace_eq]
  unfold Delimiters.pieces
  rw [htext, List.nil_append]
  exact hpieces

/-- A text whose pieces are kept when its contents are replaced holds no escape: the new text is made
    of its own pieces. -/
theorem isUnescaped_of_pieces_replace {f : List Char → List Char}
    (hf : ∀ content, (f content).count '}' = content.count '}') {cs : List Char}
    (h : Delimiters.bind.pieces (Delimiters.bind.replace
        (fun content => some (Delimiters.bind.wrap (f content))) cs) =
      (Delimiters.bind.pieces cs).map (Piece.mapContent f)) : IsUnescaped cs := by
  have hrefill : (Delimiters.bind.pieces (Delimiters.bind.replace
        (fun content => some (Delimiters.bind.wrap (f content))) cs)).flatMap
      (Delimiters.bind.fill Delimiters.bind.wrap) =
        Delimiters.bind.replace (fun content => some (Delimiters.bind.wrap (f content))) cs := by
    rw [h, List.flatMap_map, Delimiters.replace_eq]
    exact List.flatMap_congr fun p _ => p.fill_mapContent f
  have hu := isUnescaped_of_refill hrefill
  intro p hp
  rw [← p.escapes_mapContent hf]
  refine hu _ ?_
  rw [h]
  exact List.mem_map_of_mem hp

/-! ## 5. Renaming -/

namespace Layer

/-- What a renamed content was before: blanks, the name, which is not empty, and the rest. -/
theorem renameLeading?_some {name : String} {suffix : Nat} {content renamed : List Char}
    (h : renameLeading? name suffix content = some renamed) :
    name.toList ≠ [] ∧ ∃ blanks rest, content = blanks ++ (name.toList ++ rest) ∧
      (∀ c ∈ blanks, Text.isBlank c = true) ∧
      renamed = (elementName name suffix).toList ++ rest := by
  unfold renameLeading? at h
  split at h
  · cases h
  · rename_i hname
    split at h
    · rename_i rest hp
      split at h
      · cases h
        refine ⟨fun hn => hname (String.isEmpty_iff.mpr (String.toList_eq_nil_iff.mp hn)),
          content.takeWhile Text.isBlank, rest, ?_, fun c hc => ?_, rfl⟩
        · rw [← eq_append_of_isPrefixOf? hp]
          exact List.takeWhile_append_dropWhile.symm
        · exact List.all_eq_true.mp List.all_takeWhile c hc
      · cases h
    · cases h

theorem rename_cases (item index : Option String) (suffix : Nat) (content : List Char) :
    rename item index suffix content = content ∨
      ∃ name, renameLeading? name suffix content = some (rename item index suffix content) := by
  unfold rename
  split
  · rename_i renamed h
    obtain ⟨name, -, hr⟩ := Option.bind_eq_some_iff.mp h
    exact .inr ⟨name, hr⟩
  · split
    · rename_i renamed h
      obtain ⟨name, -, hr⟩ := Option.bind_eq_some_iff.mp h
      exact .inr ⟨name, hr⟩
    · exact .inl rfl

theorem digits_of_elementName (suffix : Nat) {c : Char} (h : c ∈ Nat.toDigits 10 suffix) :
    c.isDigit = true := Nat.isDigit_of_mem_toDigits (by decide) (by decide) h

theorem count_elementName (name : String) (suffix : Nat) :
    (elementName name suffix).toList.count '}' = name.toList.count '}' := by
  have hdigits : (Nat.toDigits 10 suffix).count '}' = 0 := by
    refine List.count_eq_zero.mpr fun h => ?_
    have := digits_of_elementName suffix h
    cases this
  have hprefix : elementPrefix.toList.count '}' = 0 := by decide +kernel
  rw [elementName_toList, List.count_append, List.count_append,
    List.count_cons_of_ne (by decide), hprefix, hdigits, Nat.zero_add, Nat.add_zero]

/-- **Renaming keeps the number of braces.** -/
theorem count_rename (item index : Option String) (suffix : Nat) (content : List Char) :
    (rename item index suffix content).count '}' = content.count '}' := by
  rcases rename_cases item index suffix content with h | ⟨name, h⟩
  · rw [h]
  · obtain ⟨-, blanks, rest, hc, hb, hr⟩ := renameLeading?_some h
    have hblanks : blanks.count '}' = 0 := List.count_eq_zero.mpr fun hmem => by
      cases hb _ hmem
    rw [hr, List.count_append, count_elementName]
    conv_rhs => rw [hc]
    rw [List.count_append, List.count_append, hblanks, Nat.zero_add]

/-- **Renaming brings no backslash to the end of a content.** -/
theorem endsEscaped_rename (item index : Option String) (suffix : Nat) (content : List Char)
    (he : endsEscaped content = false) : endsEscaped (rename item index suffix content) = false := by
  rcases rename_cases item index suffix content with h | ⟨name, h⟩
  · rw [h]
    exact he
  · obtain ⟨-, blanks, rest, hc, -, hr⟩ := renameLeading?_some h
    rw [hr]
    rcases List.eq_nil_or_concat rest with rfl | ⟨init, c, rfl⟩
    · -- the name of an element ends in a digit
      rw [List.append_nil]
      cases hend : endsEscaped (elementName name suffix).toList with
      | false => rfl
      | true =>
        obtain ⟨init, hi⟩ := eq_concat_of_endsEscaped hend
        have hd : Nat.toDigits 10 suffix ≠ [] := Nat.toDigits_ne_nil
        obtain ⟨before, last, hb⟩ := (List.eq_nil_or_concat _).resolve_left hd
        have hlast : last ∈ Nat.toDigits 10 suffix := by
          rw [hb, List.concat_eq_append]
          exact List.mem_append_right _ (List.mem_singleton_self last)
        rw [elementName_toList, hb, List.concat_eq_append, ← List.cons_append, ← List.append_assoc,
          ← List.append_assoc] at hi
        obtain ⟨-, hl⟩ := List.append_inj' hi rfl
        cases hl
        have := digits_of_elementName suffix hlast
        cases this
    · rw [List.concat_eq_append, ← List.append_assoc, endsEscaped_concat]
      rw [hc, List.concat_eq_append, ← List.append_assoc, ← List.append_assoc,
        endsEscaped_concat] at he
      exact he

theorem keepsEnds_rename (item index : Option String) (suffix : Nat) :
    KeepsEnds (rename item index suffix) :=
  ⟨count_rename item index suffix, endsEscaped_rename item index suffix⟩

theorem toList_renameFragment (item index : Option String) (suffix : Nat) (fragment : String) :
    (renameFragment item index suffix fragment).toList = Delimiters.bind.replace
      (fun content => some (Delimiters.bind.wrap (rename item index suffix content)))
      fragment.toList := String.toList_ofList

theorem pieces_renameFragment (item index : Option String) (suffix : Nat) {fragment : String}
    (hu : IsUnescaped fragment.toList) :
    Delimiters.bind.pieces (renameFragment item index suffix fragment).toList =
      (Delimiters.bind.pieces fragment.toList).map
        (Piece.mapContent (rename item index suffix)) := by
  rw [toList_renameFragment]
  exact pieces_replace (keepsEnds_rename item index suffix) hu

/-- Renaming keeps the pieces of exactly the fragments without escapes, for all variables and
    numbers, whether or not the fragment names them. -/
theorem pieces_renameFragment_iff (item index : Option String) (suffix : Nat) (fragment : String) :
    Delimiters.bind.pieces (renameFragment item index suffix fragment).toList =
        (Delimiters.bind.pieces fragment.toList).map
          (Piece.mapContent (rename item index suffix)) ↔
      IsUnescaped fragment.toList := by
  refine ⟨fun h => ?_, pieces_renameFragment item index suffix⟩
  rw [toList_renameFragment] at h
  exact isUnescaped_of_pieces_replace (count_rename item index suffix) h

/-! ## 6. Loops inside loops -/

/-- What a layer makes of a content. -/
def renamed : Layer → List Char → List Char
  | .separator _ _ => fun content => content
  | .renaming item index suffix => rename item index suffix

/-- What layers make of a content, the first one first. -/
def renamedThrough : List Layer → List Char → List Char
  | [], content => content
  | layer :: rest, content => renamedThrough rest (layer.renamed content)

theorem count_renamed (layer : Layer) (content : List Char) :
    (layer.renamed content).count '}' = content.count '}' := by
  cases layer with
  | separator text applied => rfl
  | «renaming» item index suffix => exact count_rename item index suffix content

/-- Layers change their flags on the way, not what they make of contents. -/
theorem renamed_passAll (layer : Layer) (fragments : List String) :
    (layer.passAll fragments).1.renamed = layer.renamed := by
  induction fragments generalizing layer with
  | nil => rfl
  | cons fragment rest ih =>
    have hp : (layer.pass fragment).1.renamed = layer.renamed := by
      cases layer with
      | separator text applied =>
        rw [pass]
        split
        · rfl
        · rfl
      | «renaming» item index suffix => rfl
    exact (ih _).trans hp

/-- A fragment without escapes comes out of a layer last, with its contents renamed. -/
theorem pass_pieces (layer : Layer) {fragment : String} (hu : IsUnescaped fragment.toList) :
    ∃ before last, (layer.pass fragment).2 = before ++ [last] ∧
      Delimiters.bind.pieces last.toList =
        (Delimiters.bind.pieces fragment.toList).map (Piece.mapContent layer.renamed) := by
  cases layer with
  | separator text applied =>
    have hid : Delimiters.bind.pieces fragment.toList =
        (Delimiters.bind.pieces fragment.toList).map
          (Piece.mapContent (Layer.separator text applied).renamed) := by
      rw [List.map_congr_left fun p _ => p.mapContent_id, List.map_id']
    have hout : ∃ before, (pass fragment (.separator text applied)).2 = before ++ [fragment] := by
      rw [pass]
      split
      · exact ⟨[], rfl⟩
      · split
        · exact ⟨[], rfl⟩
        · exact ⟨[text], rfl⟩
    obtain ⟨before, hout⟩ := hout
    exact ⟨before, fragment, hout, hid⟩
  | «renaming» item index suffix =>
    exact ⟨[], _, rfl, pieces_renameFragment item index suffix hu⟩

theorem isUnescaped_of_pieces {cs cs' : List Char} {f : List Char → List Char}
    (hf : ∀ content, (f content).count '}' = content.count '}')
    (h : Delimiters.bind.pieces cs' = (Delimiters.bind.pieces cs).map (Piece.mapContent f))
    (hu : IsUnescaped cs) : IsUnescaped cs' := by
  intro p hp
  rw [h] at hp
  obtain ⟨q, hq, rfl⟩ := List.mem_map.mp hp
  rw [q.escapes_mapContent hf]
  exact hu q hq

/-- **Loops inside loops keep the pieces of a fragment without escapes**: it comes out of the layers
    last, with its contents renamed by one layer after the other. -/
theorem pieces_passThrough (layers : List Layer) (fragments : List String) {fragment : String}
    (hu : IsUnescaped fragment.toList) :
    ∃ before last, (passThrough layers (fragments ++ [fragment])).2 = before ++ [last] ∧
      Delimiters.bind.pieces last.toList = (Delimiters.bind.pieces fragment.toList).map
        (Piece.mapContent (renamedThrough layers)) := by
  induction layers generalizing fragments fragment with
  | nil =>
    refine ⟨fragments, fragment, rfl, ?_⟩
    show _ = (Delimiters.bind.pieces fragment.toList).map
      (Piece.mapContent fun content => content)
    rw [List.map_congr_left fun p _ => p.mapContent_id, List.map_id']
  | cons layer rest ih =>
    obtain ⟨before, last, hout, hpieces⟩ := pass_pieces (layer.passAll fragments).1 hu
    rw [renamed_passAll] at hpieces
    have hlast := isUnescaped_of_pieces layer.count_renamed hpieces hu
    have hall : (layer.passAll (fragments ++ [fragment])).2 =
        (layer.passAll fragments).2 ++ before ++ [last] := by
      rw [passAll_append, List.append_assoc, ← hout]
      exact congrArg _ (List.append_nil _)
    obtain ⟨before', last', hout', hpieces'⟩ :=
      ih ((layer.passAll fragments).2 ++ before) hlast
    refine ⟨before', last', ?_, ?_⟩
    · rw [← hout', ← hall]
      rfl
    · rw [hpieces', hpieces, List.map_map]
      exact List.map_congr_left fun p _ => p.mapContent_mapContent _ _

end Layer

/-! ## 7. Fragments that keep their pieces -/

/-- What a fragment without escapes leaves behind in a scope, whatever loops it is appended in: its
    own pieces, with the variables of the loops renamed. -/
theorem Scope.append_pieces (s : Scope) {fragment : String} (hu : IsUnescaped fragment.toList) :
    ∃ before last, (s.append fragment).fragments = s.fragments ++ before ++ [last] ∧
      Delimiters.bind.pieces last.toList = (Delimiters.bind.pieces fragment.toList).map
        (Piece.mapContent (Layer.renamedThrough s.layers)) := by
  obtain ⟨before, last, hout, hpieces⟩ := Layer.pieces_passThrough s.layers [] hu
  refine ⟨before, last, ?_, hpieces⟩
  rw [List.append_assoc, ← hout]
  rfl

/-- **Renaming keeps the pieces of exactly the fragments without escapes**: the texts between the
    placeholders are the same, and each content is the old one with its leading variable renamed.
    Such a fragment keeps its pieces through any number of loops, and is the last that they let
    into the scope. -/
theorem pieces_kept (item index : Option String) (suffix : Nat) (fragment : String) :
    (Delimiters.bind.pieces (Layer.renameFragment item index suffix fragment).toList =
        (Delimiters.bind.pieces fragment.toList).map
          (Piece.mapContent (Layer.rename item index suffix)) ↔
      IsUnescaped fragment.toList) ∧
    (IsUnescaped fragment.toList → ∀ s : Scope,
      ∃ before last, (s.append fragment).fragments = s.fragments ++ before ++ [last] ∧
        Delimiters.bind.pieces last.toList = (Delimiters.bind.pieces fragment.toList).map
          (Piece.mapContent (Layer.renamedThrough s.layers))) :=
  ⟨Layer.pieces_renameFragment_iff item index suffix fragment, fun hu s => s.append_pieces hu⟩

/-- The scope in the second element of a loop that stands in the first element of another one. -/
def nestedScope : Scope :=
  (({} : Scope).cover (Loop.elementLayers { collection := "xs", item := some "x" } true 0)).cover
    (Loop.elementLayers
      { collection := "ys", item := some "y", index := some "i", separator := some "," } false 2)

/-- A fragment that names the variables of both loops. -/
theorem nestedScope_pieces :
    IsUnescaped "#{x.id} = #{y}".toList ∧
      ∃ before last, (nestedScope.append "#{x.id} = #{y}").fragments = before ++ [last] ∧
        Delimiters.bind.pieces last.toList =
          [.text [], .token "__frch_x_0.id".toList, .text " = ".toList,
            .token "__frch_y_2".toList, .text []] := by
  have hu : IsUnescaped "#{x.id} = #{y}".toList := isUnescaped_of_not_mem (by decide +kernel)
  obtain ⟨-, hkept⟩ := pieces_kept (some "x") none 0 "#{x.id} = #{y}"
  obtain ⟨before, last, hout, hpieces⟩ := hkept hu nestedScope
  refine ⟨hu, before, last, hout, hpieces.trans ?_⟩
  decide +kernel

/-- A loop over one value whose body holds an escaped placeholder. -/
def escapedLoop : Template :=
  .loop { collection := "xs", item := some "x" } (.ofText "\\#{x}")

/-- **Escapes do not survive a loop**: an escaped placeholder becomes one that is bound, although it
    stands for itself outside of the loop, and a content with an escaped brace ends at it. -/
theorem escapes_renamed :
    Delimiters.bind.pieces (Layer.renameFragment (some "x") none 0 "\\#{x}").toList ≠
        (Delimiters.bind.pieces "\\#{x}".toList).map
          (Piece.mapContent (Layer.rename (some "x") none 0)) ∧
      (Backend.render { engine := .constant (.seq [.int 1]) } escapedLoop .null none).map
          (fun q => (q.sql, q.markers.length)) = .ok ("?", 1) ∧
      (Backend.render { engine := .constant (.seq [.int 1]) } (.ofText "\\#{x}") .null none).map
          (fun q => (q.sql, q.markers.length)) = .ok ("#{x}", 0) ∧
      Delimiters.bind.contents "#\x7ba\\\x7db\x7d".toList = ["a\x7db".toList] ∧
      Delimiters.bind.contents (Layer.renameFragment (some "x") none 0 "#\x7ba\\\x7db\x7d").toList =
        ["a".toList] := by
  refine ⟨?_, ?_, ?_, ?_, ?_⟩ <;> decide +kernel

end SqlTemplate
