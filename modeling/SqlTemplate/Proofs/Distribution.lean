import Mathlib.Data.List.Forall2
import SqlTemplate.Proofs.Alignment
import SqlTemplate.Proofs.PathContent

/-!
# Finalizing fragment by fragment

The fragments of a scope are joined and trimmed before placeholders are looked for. Finalizing them
one by one comes to the same, as long as each of them closes the placeholders that it opens.

* `numberFrom_append`, `numberFrom_trim`: the markers of two texts, one after the other, and of a
  text whose blank ends are cut;
* `numberEach`: fragments with their markers, counted on from one fragment to the next;
* `Query.finalizeEach`: the finalizer at work on one fragment after the other;
* `Template.AppliedEach`: the children of a sequence, each with the fragments that it appends;
* `Query.finalize_distributes`: the text of a scope is finalized as its fragments are.
-/

namespace SqlTemplate

open Text (isBlank)

/-! ## 1. Numbering across a seam -/

section Numbering

variable {style : MarkerStyle} {pending xs ys : List Char} {escaped : Bool}

/-- What stands in front of a place stays in front, unless the place is an escaped placeholder whose
    backslash is not there. -/
theorem numberFrom_front (position : Nat) (front : List Char)
    (h : escaped = true → pending = [] → opens xs = false) :
    numberFrom style position (Delimiters.bind.piecesFrom (front ++ pending) escaped xs) =
      front ++ numberFrom style position (Delimiters.bind.piecesFrom pending escaped xs) := by
  fun_induction Delimiters.bind.piecesFrom pending escaped xs with
  | case1 pending xs rest hp _ =>
    have hne : pending ≠ [] := by
      intro hnil
      have ho := h rfl hnil
      rw [eq_of_opening hp] at ho
      cases ho
    have hb (cs : List Char) (hcs : cs ≠ []) : Delimiters.beforeEscape cs = .text cs.dropLast := by
      unfold Delimiters.beforeEscape
      rw [if_neg (fun he => hcs (List.isEmpty_iff.mp he))]
    rw [Delimiters.piecesFrom_escaped hp, hb pending hne,
      hb _ (List.append_ne_nil_of_right_ne_nil _ hne), List.dropLast_append_of_ne_nil hne]
    exact List.append_assoc _ _ _
  | case2 pending escaped xs rest hp hf hn =>
    obtain rfl : escaped = false := Bool.eq_false_iff.mpr hf
    rw [Delimiters.piecesFrom_unterminated hp hn]
    exact List.append_assoc _ _ _
  | case3 pending escaped xs rest hp hf content rest' hr _ =>
    obtain rfl : escaped = false := Bool.eq_false_iff.mpr hf
    rw [Delimiters.piecesFrom_closed hp hr]
    exact List.append_assoc _ _ _
  | case4 pending escaped _ =>
    rw [Delimiters.piecesFrom_nil]
    exact List.append_assoc _ _ _
  | case5 pending escaped c xs hp ih =>
    rw [Delimiters.piecesFrom_cons hp, List.append_assoc]
    exact ih fun _ hnil => absurd hnil (List.append_ne_nil_of_right_ne_nil _ (List.cons_ne_nil _ _))

theorem numberFrom_pending (position : Nat) (front ys : List Char) :
    numberFrom style position (Delimiters.bind.piecesFrom front false ys) =
      front ++ numberFrom style position (Delimiters.bind.pieces ys) := by
  have h : numberFrom style position (Delimiters.bind.piecesFrom (front ++ []) false ys) =
      front ++ numberFrom style position (Delimiters.bind.piecesFrom [] false ys) :=
    numberFrom_front position front fun h => by cases h
  rwa [List.append_nil] at h

/-- A backslash matters to a placeholder that opens right behind it, and to nothing else. -/
theorem piecesFrom_of_not_opens (h : opens xs = false) :
    Delimiters.bind.piecesFrom pending escaped xs = Delimiters.bind.piecesFrom pending false xs := by
  cases xs with
  | nil => rw [Delimiters.piecesFrom_nil, Delimiters.piecesFrom_nil]
  | cons c xs => rw [piecesFrom_char h, piecesFrom_char h]

theorem numberFrom_piecesFrom_append (position : Nat)
    (hc : ∀ rest, Piece.unterminated rest ∉ Delimiters.bind.piecesFrom pending escaped xs)
    (hs : Seamless xs ys) (he : escaped = true → xs = [] → opens ys = false) :
    numberFrom style position (Delimiters.bind.piecesFrom pending escaped (xs ++ ys)) =
      numberFrom style position (Delimiters.bind.piecesFrom pending escaped xs) ++
        numberFrom style (position + (contentsFrom escaped xs).length)
          (Delimiters.bind.pieces ys) := by
  fun_induction Delimiters.bind.piecesFrom pending escaped xs generalizing position with
  | case1 pending xs rest hp ih =>
    obtain rfl := eq_of_opening hp
    have hr := ih position
      (fun r hmem => hc r (List.mem_cons_of_mem _ (List.mem_cons_of_mem _ hmem)))
      (Seamless.of_append ['#', '{'] hs) (fun h => by cases h)
    rw [contentsFrom_escaped, List.cons_append, List.cons_append,
      Delimiters.piecesFrom_escaped (isPrefixOf?_opening _),
      Query.numberFrom_plain style position (beforeEscape_content? pending),
      Query.numberFrom_plain style position (beforeEscape_content? pending),
      Query.numberFrom_plain style position rfl, Query.numberFrom_plain style position rfl, hr]
    simp only [List.append_assoc]
    rfl
  | case2 pending escaped xs rest hp _ hn =>
    exact absurd (List.mem_cons_of_mem _ List.mem_cons_self) (hc _)
  | case3 pending escaped xs rest hp hf content rest' hr ih =>
    obtain rfl : escaped = false := Bool.eq_false_iff.mpr hf
    obtain rfl := eq_of_opening hp
    obtain ⟨before, rfl⟩ := readContent_suffix hr
    have htail := ih (position + 1)
      (fun r hmem => hc r (List.mem_cons_of_mem _ (List.mem_cons_of_mem _ hmem)))
      (Seamless.of_append ('#' :: '{' :: before) hs) (fun h => by cases h)
    rw [contentsFrom_closed hr, List.length_cons, List.cons_append, List.cons_append,
      Delimiters.piecesFrom_closed (isPrefixOf?_opening _) (readContent_append hr ys)]
    show pending ++ ((style.marker position).toList ++ numberFrom style (position + 1) _) =
      pending ++ ((style.marker position).toList ++ numberFrom style (position + 1) _) ++ _
    rw [show endsEscaped Delimiters.bind.closing = false from rfl] at htail ⊢
    rw [htail]
    simp only [List.append_assoc, Nat.add_assoc, Nat.add_comm 1]
  | case4 pending escaped _ =>
    have hplain : Delimiters.bind.piecesFrom pending escaped ys =
        Delimiters.bind.piecesFrom pending false ys := by
      cases escaped with
      | false => rfl
      | true => exact piecesFrom_of_not_opens (he rfl rfl)
    rw [List.nil_append, contentsFrom_nil, hplain, numberFrom_pending]
    show _ = pending ++ [] ++ numberFrom style (position + 0) _
    rw [List.append_nil]
    rfl
  | case5 pending escaped c xs hp ih =>
    have ho := not_opens_of_opening hp
    rw [List.cons_append, piecesFrom_char (not_opens_append ho hs), contentsFrom_char ho]
    refine ih position hc (Seamless.of_append [c] hs) fun h hx => ?_
    subst hx
    exact hs.escape (congrArg some (eq_of_beq h))

/-- **The markers of two texts, one after the other**, are those of the first and then, counted on,
    those of the second one, if the first one leaves nothing open and nothing arises at the seam. -/
theorem numberFrom_append (style : MarkerStyle) (position : Nat) (hc : IsClosed xs)
    (hs : Seamless xs ys) : numberFrom style position (Delimiters.bind.pieces (xs ++ ys)) =
      numberFrom style position (Delimiters.bind.pieces xs) ++
        numberFrom style (position + (Delimiters.bind.contents xs).length)
          (Delimiters.bind.pieces ys) :=
  numberFrom_piecesFrom_append position hc hs fun h => by cases h

end Numbering

/-! ## 2. Blank ends -/

section Blanks

variable {style : MarkerStyle} {pending cs : List Char} {escaped : Bool}

/-- Whether a text that is not empty begins with a character that is not blank. -/
def BeginsSolid (cs : List Char) : Prop := ∀ c, cs.head? = some c → isBlank c = false

/-- Whether a text that is not empty ends with a character that is not blank. -/
def EndsSolid (cs : List Char) : Prop := ∀ c, cs.getLast? = some c → isBlank c = false

theorem endsSolid_append {xs ys : List Char} (hx : ys = [] → EndsSolid xs) (hy : EndsSolid ys) :
    EndsSolid (xs ++ ys) := by
  intro c hc
  rcases List.eq_nil_or_concat ys with hnil | ⟨ys', y, rfl⟩
  · rw [hnil, List.append_nil] at hc
    exact hx hnil c hc
  · rw [List.concat_eq_append, ← List.append_assoc, List.getLast?_concat] at hc
    exact hy c (by rw [List.concat_eq_append, List.getLast?_concat, hc])

theorem EndsSolid.of_append (xs : List Char) {ys : List Char} (h : EndsSolid (xs ++ ys)) :
    EndsSolid ys :=
  fun _ hc => h _ (getLast?_append_of hc)

/-- A marker is not empty, and none of its characters is blank. -/
theorem marker_solid (style : MarkerStyle) (position : Nat) :
    (style.marker position).toList ≠ [] ∧
      ∀ c ∈ (style.marker position).toList, isBlank c = false := by
  cases style with
  | questionMark =>
    have hm : "?".toList = ['?'] := by decide +kernel
    show "?".toList ≠ [] ∧ ∀ c ∈ "?".toList, isBlank c = false
    rw [hm]
    exact ⟨List.cons_ne_nil _ _, List.forall_mem_singleton.mpr rfl⟩
  | dollarNumbered =>
    have hm : (MarkerStyle.dollarNumbered.marker position).toList =
        '$' :: Nat.toDigits 10 position := by
      show ("$" ++ toString position).toList = _
      rw [String.toList_append]
      exact congrArg ('$' :: ·) Nat.toList_repr
    rw [hm]
    refine ⟨List.cons_ne_nil _ _, List.forall_mem_cons.mpr ⟨rfl, fun c hc => ?_⟩⟩
    have hname := isNameChar_digit hc
    unfold isNameChar at hname
    cases hb : isBlank c with
    | false => rfl
    | true =>
      rw [hb] at hname
      cases hname

/-- The SQL of a text that begins with a character that is not blank does so, too. -/
theorem beginsSolid_numberFrom (position : Nat) (h : BeginsSolid (pending ++ cs)) :
    BeginsSolid (numberFrom style position (Delimiters.bind.piecesFrom pending escaped cs)) := by
  -- Whatever stands behind it, the first pending character is the first one of the SQL.
  have front {x : Char} {xs ys : List Char} (zs : List Char) (hx : BeginsSolid (x :: xs)) :
      BeginsSolid (x :: ys ++ zs) := by
    intro c hc
    cases hc
    exact hx x rfl
  fun_induction Delimiters.bind.piecesFrom pending escaped cs with
  | case1 pending cs rest hp _ =>
    obtain rfl := eq_of_opening hp
    have sharp (zs : List Char) : BeginsSolid ('#' :: zs) := fun c hc => by cases hc; rfl
    rw [Query.numberFrom_plain style position (beforeEscape_content? pending)]
    cases pending with
    | nil => exact sharp _
    | cons x pending =>
      cases pending with
      | nil => exact sharp _
      | cons y pending => exact front _ h
  | case2 pending escaped cs rest hp hf hn =>
    obtain rfl := eq_of_opening hp
    rw [Query.numberFrom_plain style position rfl, Query.numberFrom_plain style position rfl]
    show BeginsSolid (pending ++ ('#' :: '{' :: rest ++ []))
    rw [List.append_nil]
    exact h
  | case3 pending escaped cs rest hp hf content rest' hr _ =>
    show BeginsSolid (pending ++ ((style.marker position).toList ++ _))
    cases pending with
    | cons x pending => exact front _ h
    | nil =>
      obtain ⟨hne, hm⟩ := marker_solid style position
      obtain ⟨m, ms, he⟩ := List.exists_cons_of_ne_nil hne
      rw [he] at hm ⊢
      intro c hc
      cases hc
      exact hm m List.mem_cons_self
  | case4 pending escaped _ =>
    rw [Query.numberFrom_plain style position rfl]
    exact h
  | case5 pending escaped c cs hp ih =>
    refine ih ?_
    rw [List.append_assoc]
    exact h

/-- The SQL of a text that ends with a character that is not blank does so, too. -/
theorem endsSolid_numberFrom (position : Nat) (h : EndsSolid (pending ++ cs)) :
    EndsSolid (numberFrom style position (Delimiters.bind.piecesFrom pending escaped cs)) := by
  fun_induction Delimiters.bind.piecesFrom pending escaped cs generalizing position with
  | case1 pending cs rest hp ih =>
    obtain rfl := eq_of_opening hp
    have hrest := ih position ((h.of_append pending).of_append ['#', '{'])
    rw [Query.numberFrom_plain style position (beforeEscape_content? pending),
      Query.numberFrom_plain style position rfl]
    refine endsSolid_append (fun hnil => ?_) (endsSolid_append (fun _ => ?_) hrest)
    · exact absurd (List.append_eq_nil_iff.mp hnil).1 (List.cons_ne_nil _ _)
    · intro c hc
      cases hc
      rfl
  | case2 pending escaped cs rest hp hf hn =>
    obtain rfl := eq_of_opening hp
    rw [Query.numberFrom_plain style position rfl, Query.numberFrom_plain style position rfl]
    show EndsSolid (pending ++ ('#' :: '{' :: rest ++ []))
    rw [List.append_nil]
    exact h
  | case3 pending escaped cs rest hp hf content rest' hr ih =>
    obtain rfl := eq_of_opening hp
    obtain ⟨before, rfl⟩ := readContent_suffix hr
    have hrest := ih (position + 1) ((h.of_append pending).of_append ('#' :: '{' :: before))
    obtain ⟨hne, hm⟩ := marker_solid style position
    refine endsSolid_append (fun hnil => ?_) (endsSolid_append (fun _ c hc => ?_) hrest)
    · exact absurd (List.append_eq_nil_iff.mp hnil).1 hne
    · exact hm c (List.mem_of_getLast? hc)
  | case4 pending escaped _ =>
    rw [Query.numberFrom_plain style position rfl]
    exact h
  | case5 pending escaped c cs hp ih =>
    refine ih position ?_
    rw [List.append_assoc]
    exact h

theorem numberFrom_nil (position : Nat) :
    numberFrom style position (Delimiters.bind.pieces []) = [] := by
  unfold Delimiters.pieces
  rw [Delimiters.piecesFrom_nil]
  rfl

/-- A blank at the front of a text stands at the front of its SQL. -/
theorem numberFrom_cons_blank (position : Nat) {c : Char} (h : isBlank c = true)
    (cs : List Char) : numberFrom style position (Delimiters.bind.pieces (c :: cs)) =
      c :: numberFrom style position (Delimiters.bind.pieces cs) := by
  have hc : (c == escapeChar) = false := by
    refine beq_false_of_ne ?_
    rintro rfl
    cases h
  unfold Delimiters.pieces
  rw [piecesFrom_char (not_opens_of_blank h cs), hc]
  exact numberFrom_pending position [c] cs

/-- A blank at the end of a text stands at the end of its SQL. It closes no placeholder. -/
theorem numberFrom_concat_blank (position : Nat) {c : Char} (h : isBlank c = true) :
    numberFrom style position (Delimiters.bind.piecesFrom pending escaped (cs ++ [c])) =
      numberFrom style position (Delimiters.bind.piecesFrom pending escaped cs) ++ [c] := by
  have hbrace : '}' ∉ [c] := by
    intro hmem
    rw [← List.mem_singleton.mp hmem] at h
    cases h
  have hseam (xs : List Char) : Seamless xs [c] := by
    refine ⟨fun _ hc => ?_, fun _ => not_opens_of_blank h []⟩
    rw [Option.some.inj hc] at h
    cases h
  fun_induction Delimiters.bind.piecesFrom pending escaped cs generalizing position with
  | case1 pending cs rest hp ih =>
    obtain rfl := eq_of_opening hp
    rw [List.cons_append, List.cons_append, Delimiters.piecesFrom_escaped (isPrefixOf?_opening _),
      Query.numberFrom_plain style position (beforeEscape_content? pending),
      Query.numberFrom_plain style position (beforeEscape_content? pending),
      Query.numberFrom_plain style position rfl, Query.numberFrom_plain style position rfl, ih]
    simp only [List.append_assoc]
  | case2 pending escaped cs rest hp hf hn =>
    obtain rfl : escaped = false := Bool.eq_false_iff.mpr hf
    obtain rfl := eq_of_opening hp
    rw [List.cons_append, List.cons_append, Delimiters.piecesFrom_unterminated
      (isPrefixOf?_opening _) (readContent_append_none hn hbrace)]
    show pending ++ ('#' :: '{' :: (rest ++ [c]) ++ []) =
      pending ++ ('#' :: '{' :: rest ++ []) ++ [c]
    simp only [List.append_nil, List.append_assoc, List.cons_append]
  | case3 pending escaped cs rest hp hf content rest' hr ih =>
    obtain rfl : escaped = false := Bool.eq_false_iff.mpr hf
    obtain rfl := eq_of_opening hp
    have htail := ih (position + 1)
    rw [List.cons_append, List.cons_append,
      Delimiters.piecesFrom_closed (isPrefixOf?_opening _) (readContent_append hr [c])]
    show pending ++ ((style.marker position).toList ++ numberFrom style (position + 1) _) =
      pending ++ ((style.marker position).toList ++ numberFrom style (position + 1) _) ++ [c]
    rw [htail]
    simp only [List.append_assoc]
  | case4 pending escaped _ =>
    rw [List.nil_append, piecesFrom_char (not_opens_of_blank h []), Delimiters.piecesFrom_nil,
      Query.numberFrom_plain style position rfl, Query.numberFrom_plain style position rfl]
    show pending ++ [c] ++ [] = pending ++ [] ++ [c]
    rw [List.append_nil, List.append_nil]
  | case5 pending escaped a cs hp ih =>
    have ho := not_opens_of_opening hp
    rw [List.cons_append, piecesFrom_char (not_opens_append ho (hseam _))]
    exact ih position

/-- **Blank ends of a text are blank ends of its SQL**: it does not matter when they are cut. -/
theorem numberFrom_trim (style : MarkerStyle) (position : Nat) (cs : List Char) :
    numberFrom style position (Delimiters.bind.pieces (Text.trim cs)) =
      Text.trim (numberFrom style position (Delimiters.bind.pieces cs)) := by
  have start (cs : List Char) :
      numberFrom style position (Delimiters.bind.pieces (cs.dropWhile isBlank)) =
        (numberFrom style position (Delimiters.bind.pieces cs)).dropWhile isBlank := by
    induction cs with
    | nil =>
      rw [List.dropWhile_nil, numberFrom_nil, List.dropWhile_nil]
    | cons c cs ih =>
      cases hb : isBlank c with
      | true =>
        rw [numberFrom_cons_blank position hb, List.dropWhile_cons_of_pos hb,
          List.dropWhile_cons_of_pos hb, ih]
      | false =>
        have hsolid : BeginsSolid ([] ++ c :: cs) := fun d hd => by cases hd; exact hb
        rw [List.dropWhile_cons_of_neg (ne_true_of_eq_false hb)]
        exact (dropWhile_at_stop (beginsSolid_numberFrom position hsolid)).symm
  have stop (rs : List Char) :
      numberFrom style position (Delimiters.bind.pieces (rs.dropWhile isBlank).reverse) =
        ((numberFrom style position (Delimiters.bind.pieces rs.reverse)).reverse.dropWhile
          isBlank).reverse := by
    induction rs with
    | nil =>
      rw [List.dropWhile_nil, List.reverse_nil, numberFrom_nil, List.reverse_nil,
        List.dropWhile_nil, List.reverse_nil]
    | cons c rs ih =>
      cases hb : isBlank c with
      | true =>
        have hc : numberFrom style position (Delimiters.bind.pieces (rs.reverse ++ [c])) =
            numberFrom style position (Delimiters.bind.pieces rs.reverse) ++ [c] :=
          numberFrom_concat_blank position hb
        rw [List.dropWhile_cons_of_pos hb, ih, List.reverse_cons, hc, List.reverse_append,
          List.reverse_singleton, List.singleton_append, List.dropWhile_cons_of_pos hb]
      | false =>
        have hsolid : EndsSolid ([] ++ (rs.reverse ++ [c])) := by
          intro d hd
          rw [List.nil_append, List.getLast?_concat] at hd
          cases hd
          exact hb
        have hlast : EndsSolid (numberFrom style position
            (Delimiters.bind.pieces (rs.reverse ++ [c]))) := endsSolid_numberFrom position hsolid
        rw [List.dropWhile_cons_of_neg (ne_true_of_eq_false hb), List.reverse_cons,
          dropWhile_at_stop, List.reverse_reverse]
        intro d hd
        rw [List.head?_reverse] at hd
        exact hlast d hd
  show numberFrom style position
    (Delimiters.bind.pieces ((cs.dropWhile isBlank).reverse.dropWhile isBlank).reverse) = _
  rw [stop, List.reverse_reverse, start]
  rfl

end Blanks

/-! ## 3. Fragments -/

/-- Whether a piece is a token that is never closed. -/
def Piece.isUnterminated : Piece → Bool
  | .unterminated _ => true
  | _ => false

theorem isClosed_iff {cs : List Char} :
    IsClosed cs ↔ (Delimiters.bind.pieces cs).any Piece.isUnterminated = false := by
  rw [List.any_eq_false]
  constructor
  · intro h p hp
    cases p with
    | unterminated rest => exact absurd hp (h rest)
    | text cs => exact Bool.false_ne_true
    | escapedOpen => exact Bool.false_ne_true
    | token content => exact Bool.false_ne_true
    | overlap => exact Bool.false_ne_true
  · exact fun h rest hmem => h _ hmem rfl

instance (cs : List Char) : Decidable (IsClosed cs) := decidable_of_iff _ isClosed_iff.symm

/-- A fragment with its markers, counted from `position`. -/
def numberFragment (style : MarkerStyle) (position : Nat) (fragment : String) : String :=
  String.ofList (numberFrom style position (Delimiters.bind.pieces fragment.toList))

/-- Fragments with their markers, counted on from one fragment to the next. -/
def numberEach (style : MarkerStyle) : Nat → List String → List String
  | _, [] => []
  | position, fragment :: rest =>
    numberFragment style position fragment ::
      numberEach style (position + (fragmentContents fragment).length) rest

/-- The fragments of a scope, numbered one by one and joined, are its text with the markers. -/
theorem numberFrom_joinWith (style : MarkerStyle) (position : Nat) {fragments : List String}
    (h : ∀ f ∈ fragments, IsClosed f.toList) :
    numberFrom style position
        (Delimiters.bind.pieces (Text.joinWith [' '] (fragments.map String.toList))) =
      Text.joinWith [' '] ((numberEach style position fragments).map String.toList) := by
  induction fragments generalizing position with
  | nil => exact numberFrom_nil position
  | cons f fragments ih =>
    have hlist : (numberFragment style position f).toList =
        numberFrom style position (Delimiters.bind.pieces f.toList) := String.toList_ofList
    cases fragments with
    | nil => exact hlist.symm
    | cons g fragments =>
      have hseam := numberFrom_append style position (h f List.mem_cons_self)
        (Seamless.space f.toList (Text.joinWith [' '] ((g :: fragments).map String.toList)))
      have hrest := ih (position + (fragmentContents f).length)
        fun f' hf' => h f' (List.mem_cons_of_mem f hf')
      show numberFrom style position (Delimiters.bind.pieces (f.toList ++ [' '] ++
        Text.joinWith [' '] ((g :: fragments).map String.toList))) =
          (numberFragment style position f).toList ++ [' '] ++ Text.joinWith [' '] _
      rw [List.append_assoc, List.singleton_append, hlist, List.append_assoc,
        List.singleton_append]
      refine hseam.trans (congrArg _ ?_)
      rw [numberFrom_cons_blank _ rfl]
      exact congrArg _ hrest

theorem markedText_text (style : MarkerStyle) {s : Scope}
    (h : ∀ f ∈ s.fragments, IsClosed f.toList) :
    markedText style s.text =
      Text.trimText (Text.joinTexts " " (numberEach style 1 s.fragments)) := by
  unfold markedText
  rw [toList_text, numberFrom_trim, numberFrom_joinWith style 1 h]
  unfold Text.trimText Text.joinTexts
  rw [String.toList_ofList]
  rfl

/-- Contents one after the other describe their markers one after the other. -/
theorem ofContents_append (bindings : Bindings) (xs ys : List (List Char)) :
    ofContents bindings (xs ++ ys) = (do
      let front ← ofContents bindings xs
      let back ← ofContents bindings ys
      return front ++ back) := List.mapM_append

namespace Query

/-- Finalizes fragments one after the other. Each of them goes on with the markers of those in front
    of it. -/
def finalizeEach (style : MarkerStyle) (bindings : Bindings) (fragments : List String) :
    FinalizeM (List String) :=
  fragments.mapM fun fragment => do
    let sql ← Delimiters.bind.scan (takeMarker style bindings) fragment.toList
    return String.ofList sql

theorem run_finalizeEach_cons (style : MarkerStyle) (bindings : Bindings) (fragment : String)
    (rest : List String) (ms : List Marker) :
    (finalizeEach style bindings (fragment :: rest)).run ms = (do
      let (sql, ms) ← (Delimiters.bind.scan (takeMarker style bindings) fragment.toList).run ms
      let (others, ms) ← (finalizeEach style bindings rest).run ms
      return (String.ofList sql :: others, ms)) := by
  unfold finalizeEach
  rw [List.mapM_cons]
  simp only [StateT.run_bind, StateT.run_pure, bind_assoc, pure_bind]

/-- The finalizer finds the contents of the fragments in order, and its markers are counted on. -/
theorem run_finalizeEach (style : MarkerStyle) (bindings : Bindings) (fragments : List String)
    (ms : List Marker) :
    (finalizeEach style bindings fragments).run ms =
      (ofContents bindings (fragments.flatMap fragmentContents)).map fun new =>
        (numberEach style (ms.length + 1) fragments, ms ++ new) := by
  induction fragments generalizing ms with
  | nil =>
    show Except.ok ([], ms) = Except.ok ([], ms ++ [])
    rw [List.append_nil]
  | cons f fragments ih =>
    have hscan := renderPieces_takeMarker style bindings (Delimiters.bind.pieces f.toList) ms
    rw [← Delimiters.contents_eq] at hscan
    rw [run_finalizeEach_cons, List.flatMap_cons, ofContents_append, Delimiters.scan, hscan]
    unfold fragmentContents
    cases hf : ofContents bindings (Delimiters.bind.contents f.toList) with
    | error e => rfl
    | ok new =>
      have hcount : new.length = (fragmentContents f).length :=
        (ofContents_ok_iff.mp hf).length_eq.symm
      have hi := ih (ms ++ new)
      rw [List.length_append, hcount, Nat.add_right_comm] at hi
      show ((finalizeEach style bindings fragments).run (ms ++ new) >>= _) =
        ((ofContents bindings (fragments.flatMap fragmentContents)) >>= _).map _
      rw [hi]
      cases ofContents bindings (fragments.flatMap fragmentContents) with
      | error e => rfl
      | ok others =>
        show Except.ok (_, ms ++ new ++ others) = Except.ok (_, ms ++ (new ++ others))
        rw [List.append_assoc]
        rfl

/-- The markers of fragments are those of the queries that the fragments would be alone. -/
theorem ofContents_flatMap (style : MarkerStyle) (bindings : Bindings) (fragments : List String) :
    ofContents bindings (fragments.flatMap fragmentContents) =
      (fragments.mapM fun f => finalize style f bindings).map fun parts =>
        parts.flatMap Query.markers := by
  induction fragments with
  | nil => rfl
  | cons f fragments ih =>
    rw [List.flatMap_cons, ofContents_append, ih, List.mapM_cons, finalize_eq]
    unfold fragmentContents
    cases ofContents bindings (Delimiters.bind.contents f.toList) with
    | error e => rfl
    | ok ms =>
      cases fragments.mapM fun f => finalize style f bindings with
      | error e => rfl
      | ok parts => rfl

/-- What it means that the text of a scope is finalized as its fragments are. -/
structure Distributes (style : MarkerStyle) (s : Scope) (bindings : Bindings) : Prop where
  /-- The finalizer finds the contents of the first fragment, then those of the second one, and so
      on. -/
  contents : Delimiters.bind.contents s.text.toList = s.fragments.flatMap fragmentContents
  /-- Finalizing the text is finalizing fragment by fragment, joining and trimming. -/
  stepwise : finalize style s.text bindings = (do
    let (parts, markers) ← (finalizeEach style bindings s.fragments).run []
    return { sql := Text.trimText (Text.joinTexts " " parts), markers, bindings })
  /-- The markers are those of the first fragment alone, then those of the second one, and so on. -/
  succeeds : ∀ q, finalize style s.text bindings = .ok q ↔
    ∃ parts, List.Forall₂ (fun f part => finalize style f bindings = .ok part) s.fragments parts ∧
      q = { sql := Text.trimText (Text.joinTexts " " (numberEach style 1 s.fragments))
            markers := parts.flatMap Query.markers
            bindings }
  /-- The error is that of the first fragment that cannot be finalized alone. -/
  fails : ∀ e, finalize style s.text bindings = .error e ↔
    FailsFirst (fun f => finalize style f bindings) s.fragments e
  /-- Other fragments in place of some of them are no matter to those around them. -/
  apart : ∀ before part after, s.fragments = before ++ part ++ after → ∀ s' : Scope, ∀ part',
    s'.fragments = before ++ part' ++ after → (∀ f ∈ part', IsClosed f.toList) →
      Delimiters.bind.contents s'.text.toList = before.flatMap fragmentContents ++
        part'.flatMap fragmentContents ++ after.flatMap fragmentContents

theorem distributes (style : MarkerStyle) (bindings : Bindings) {s : Scope}
    (h : ∀ f ∈ s.fragments, IsClosed f.toList) : Distributes style s bindings where
  contents := contents_text h
  stepwise := by
    rw [run_finalizeEach, finalize_eq, contents_text h, markedText_text style h]
    cases ofContents bindings (s.fragments.flatMap fragmentContents) with
    | error e => rfl
    | ok ms => rfl
  succeeds q := by
    rw [finalize_eq, contents_text h, ofContents_flatMap style, markedText_text style h]
    simp only [← mapM_ok]
    cases s.fragments.mapM fun f => finalize style f bindings with
    | error e => exact ⟨fun h => (nomatch h), fun ⟨_, h, _⟩ => (nomatch h)⟩
    | ok parts =>
      constructor
      · intro hq
        exact ⟨parts, rfl, (Except.ok.inj hq).symm⟩
      · rintro ⟨parts', hparts, rfl⟩
        cases hparts
        rfl
  fails e := by
    rw [finalize_eq, contents_text h, ofContents_flatMap style, ← mapM_error]
    cases s.fragments.mapM fun f => finalize style f bindings with
    | error e' => exact Iff.of_eq ((Except.error.injEq _ _).trans (Except.error.injEq _ _).symm)
    | ok parts => exact ⟨fun h => (nomatch h), fun h => (nomatch h)⟩
  apart before part after hs s' part' hs' hpart := by
    rw [hs] at h
    rw [contents_text (s := s') ?_, hs', List.flatMap_append, List.flatMap_append]
    rw [hs']
    intro f hf
    rcases List.mem_append.mp hf with hf | hf
    · rcases List.mem_append.mp hf with hf | hf
      · exact h f (List.mem_append_left _ (List.mem_append_left _ hf))
      · exact hpart f hf
    · exact h f (List.mem_append_right _ hf)

end Query

/-! ## 4. Sequences -/

namespace Template

/-- Templates applied one after the other, each with the fragments that it appends. -/
inductive AppliedEach (engine : Engine) :
    List Template → Scope → List (List String) → Scope → Prop where
  | nil {s : Scope} : AppliedEach engine [] s [] s
  | cons {child : Template} {rest : List Template} {s m s' : Scope} {r : Bool} {out : List String}
      {outs : List (List String)} (ha : child.apply engine s = .ok r m)
      (hf : m.fragments = s.fragments ++ out) (hr : AppliedEach engine rest m outs s') :
      AppliedEach engine (child :: rest) s (out :: outs) s'

variable {engine : Engine}

/-- A template appends, under whatever layers. -/
theorem apply_appends {t : Template} {s s' : Scope} {r : Bool} (h : t.apply engine s = .ok r s') :
    ∃ out, s'.fragments = s.fragments ++ out := by
  rw [t.apply_transparent engine s] at h
  cases hp : t.apply engine s.bare with
  | error e p =>
    rw [hp] at h
    cases h
  | ok a p =>
    rw [hp] at h
    cases h
    exact ⟨_, Scope.receive_fragments s p⟩

theorem appliedEach_of_applyAll {children : List Template} {s s' : Scope} {r : Bool}
    (h : applyAll engine children s = .ok r s') : ∃ outs, AppliedEach engine children s outs s' := by
  induction children generalizing s with
  | nil =>
    obtain ⟨-, rfl⟩ := RenderM.pure_ok.mp h
    exact ⟨[], .nil⟩
  | cons child children ih =>
    obtain ⟨_, m, h₁, h₂⟩ := RenderM.bind_ok.mp h
    obtain ⟨out, hout⟩ := apply_appends h₁
    obtain ⟨outs, houts⟩ := ih h₂
    exact ⟨out :: outs, .cons h₁ hout houts⟩

theorem AppliedEach.fragments {children : List Template} {s s' : Scope}
    {outs : List (List String)} (h : AppliedEach engine children s outs s') :
    s'.fragments = s.fragments ++ outs.flatten := by
  induction h with
  | nil => exact (List.append_nil _).symm
  | cons _ hf _ ih => rw [ih, hf, List.flatten_cons, List.append_assoc]

end Template

/-- The fragments that a template renders, if it succeeds. -/
def Template.fragments? (engine : Engine) (t : Template) : Option (List String) :=
  match t.apply engine {} with
  | .ok _ s => some s.fragments
  | .error _ _ => none

theorem Template.apply_of_fragments? {engine : Engine} {t : Template} {fs : List String}
    (h : t.fragments? engine = some fs) :
    ∃ r s, t.apply engine {} = .ok r s ∧ s.fragments = fs := by
  unfold fragments? at h
  cases ht : t.apply engine {} with
  | ok r s =>
    rw [ht] at h
    exact ⟨r, s, rfl, Option.some.inj h⟩
  | error e s =>
    rw [ht] at h
    cases h

/-- **Finalization distributes over fragments** that close their placeholders. The placeholders of a
    sequence are those of its children, in order and each read on its own. -/
theorem Query.finalize_distributes (style : MarkerStyle) (bindings : Bindings) {s : Scope}
    (h : ∀ f ∈ s.fragments, IsClosed f.toList) :
    Distributes style s bindings ∧
      ∀ engine children s₀ r, (Template.sequence children).apply engine s₀ = .ok r s →
        ∃ outs, Template.AppliedEach engine children s₀ outs s ∧
          s.fragments = s₀.fragments ++ outs.flatten ∧
          Delimiters.bind.contents s.text.toList = s₀.fragments.flatMap fragmentContents ++
            outs.flatMap fun out => out.flatMap fragmentContents := by
  refine ⟨distributes style bindings h, fun engine children s₀ r hs => ?_⟩
  rw [Template.apply] at hs
  obtain ⟨outs, houts⟩ := Template.appliedEach_of_applyAll hs
  refine ⟨outs, houts, houts.fragments, ?_⟩
  rw [contents_text h, houts.fragments, List.flatMap_append, List.flatten_eq_flatMap,
    List.flatMap_assoc]
  rfl

/-- Fragments that are blank or empty, that end in a backslash or that hold half of a delimiter. -/
def halves : List String :=
  ["", " ", "a \\", "#", "\x7bx\x7d = #\x7bx\x7d", "\\#\x7by\x7d #", "#\x7bz\x7d "]

theorem isClosed_halves : ∀ f ∈ halves, IsClosed f.toList := by decide +kernel

theorem fragments?_halves :
    (Template.sequence (halves.map .ofText)).fragments? (.constant .null) = some halves := by
  decide +kernel

theorem Query.finalize_halves :
    ∃ r s, (Template.sequence (halves.map .ofText)).apply (.constant .null) {} = .ok r s ∧
      (∀ f ∈ s.fragments, IsClosed f.toList) ∧ Distributes .dollarNumbered s {} ∧
      ∃ outs, Template.AppliedEach (.constant .null) (halves.map .ofText) {} outs s ∧
        outs.flatten = halves ∧
        Delimiters.bind.contents s.text.toList = outs.flatMap fun out => out.flatMap fragmentContents := by
  obtain ⟨r, s, hs, hf⟩ := Template.apply_of_fragments? fragments?_halves
  have hclosed : ∀ f ∈ s.fragments, IsClosed f.toList := by
    rw [hf]
    exact isClosed_halves
  obtain ⟨hd, hsequence⟩ := finalize_distributes .dollarNumbered {} hclosed
  obtain ⟨outs, houts, hflat, hcontents⟩ := hsequence _ _ _ _ hs
  exact ⟨r, s, hs, hclosed, hd, outs, houts, hflat.symm.trans hf, hcontents⟩

/-- The halves of a delimiter do not meet, and a backslash escapes within its own fragment alone. -/
example : (Query.finalize .dollarNumbered (Scope.text { fragments := halves }) {}).map Query.sql =
    .ok "a \\ # \x7bx\x7d = $1 #\x7by\x7d # $2" := by
  decide +kernel

end SqlTemplate
