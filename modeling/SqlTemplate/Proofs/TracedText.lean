import SqlTemplate.Proofs.Quoting

/-!
# Texts whose data is traced

A text that has been put together from data, read the way SQL is read. Each character carries along
whether it comes from the data, so that one can say where in the text that data ends up.

* `Traced`: a character and where it comes from;
* `lex`: the tokens of a text, which are its string literals and the characters between them;
* `elements`: the elements of a list in parentheses, which are divided by the commas outside of all
  brackets inside;
* `Hidden`: a text that can be read and has its data inside of literals; `HiddenIn` says so of a text
  in which a literal is open;
* `Segment`: a stretch of text that is read by itself, wherever it stands.
-/

namespace SqlTemplate.Sql

/-! ## 1. Traced characters -/

/-- A character of a text, and whether it comes from the data that the text has been made from. -/
structure Traced where
  char : Char
  fromData : Bool
  deriving DecidableEq, Repr

/-- Characters that come from the data. -/
def data (cs : List Char) : List Traced := cs.map (⟨·, true⟩)

/-- Characters that are put around the data. -/
def form (cs : List Char) : List Traced := cs.map (⟨·, false⟩)

/-- The text without the traces. -/
def chars (text : List Traced) : List Char := text.map Traced.char

theorem chars_data (cs : List Char) : chars (data cs) = cs := by
  unfold chars data
  rw [List.map_map]
  exact List.map_id cs

theorem chars_form (cs : List Char) : chars (form cs) = cs := by
  unfold chars form
  rw [List.map_map]
  exact List.map_id cs

theorem chars_append (xs ys : List Traced) : chars (xs ++ ys) = chars xs ++ chars ys :=
  List.map_append

/-- Whether a character is the mark of a string literal. -/
def isQuote (x : Traced) : Bool := isMark '\'' x.char

/-- A unit of SQL. -/
inductive Token where
  /-- A string literal: its marks and what stands between them. -/
  | literal (opening : Traced) (content : List Traced) (closing : Traced)
  /-- A character outside of literals. -/
  | bare (x : Traced)
  deriving DecidableEq, Repr

namespace Token

/-- The characters of a token that do not stand inside of a literal. -/
def outside : Token → List Traced
  | .literal opening _ closing => [opening, closing]
  | .bare x => [x]

/-- Whether no data stands outside of literals. -/
def IsHidden (t : Token) : Prop := ∀ x ∈ t.outside, x.fromData = false

/-- Whether a token is one of the given characters outside of literals. -/
def isOneOf (cs : List Char) : Token → Bool
  | .literal _ _ _ => false
  | .bare x => cs.contains x.char

end Token

/-- The tokens of a text; `none` when a literal is not closed. -/
def lex (text : List Traced) : Option (List Token) :=
  match text with
  | [] => some []
  | x :: xs =>
    if isQuote x then
      match _h : readQuoted isQuote xs with
      | none => none
      | some q => (lex q.rest).map (.literal x q.content q.closing :: ·)
    else (lex xs).map (.bare x :: ·)
termination_by text.length
decreasing_by
  · exact Nat.lt_succ_of_lt (length_readQuoted _h)
  · exact Nat.lt_succ_self _

section Lexing

variable {x : Traced} {xs : List Traced}

theorem lex_bare (hx : isQuote x = false) : lex (x :: xs) = (lex xs).map (.bare x :: ·) := by
  rw [lex, if_neg (Bool.eq_false_iff.mp hx)]

theorem lex_literal {q : Quoted Traced} (hx : isQuote x = true)
    (hq : readQuoted isQuote xs = some q) :
    lex (x :: xs) = (lex q.rest).map (.literal x q.content q.closing :: ·) := by
  rw [lex, if_pos hx]
  split
  · rename_i h
    cases hq.symm.trans h
  · rename_i q' h
    cases hq.symm.trans h
    rfl

theorem lex_unterminated (hx : isQuote x = true) (hq : readQuoted isQuote xs = none) :
    lex (x :: xs) = none := by
  rw [lex, if_pos hx]
  split
  · rfl
  · rename_i q h
    cases hq.symm.trans h

end Lexing

/-! ## 3. Elements -/

/-- The elements of a list whose opening parenthesis has been read. `element` is what has been read
    of the current one, in which `depth` brackets are open. -/
def elementsFrom (depth : Nat) (element : List Token) : List Token → Option (List (List Token))
  | [] => none
  | t :: ts =>
    if t.isOneOf ['(', '[', '{'] then elementsFrom (depth + 1) (element ++ [t]) ts
    else if t.isOneOf [')', ']', '}'] then
      match depth with
      | 0 => if t.isOneOf [')'] && ts.isEmpty then some [element] else none
      | depth + 1 => elementsFrom depth (element ++ [t]) ts
    else if depth = 0 ∧ t.isOneOf [','] then (elementsFrom 0 [] ts).map (element :: ·)
    else elementsFrom depth (element ++ [t]) ts

section Reading

variable {depth : Nat} {element ts : List Token} {t : Token}

theorem elementsFrom_opening (h : t.isOneOf ['(', '[', '{'] = true) :
    elementsFrom depth element (t :: ts) = elementsFrom (depth + 1) (element ++ [t]) ts := by
  rw [elementsFrom.eq_def]
  exact if_pos h

theorem elementsFrom_closing (ho : t.isOneOf ['(', '[', '{'] = false)
    (h : t.isOneOf [')', ']', '}'] = true) :
    elementsFrom (depth + 1) element (t :: ts) = elementsFrom depth (element ++ [t]) ts := by
  rw [elementsFrom.eq_def]
  simp only [ho, h, Bool.false_eq_true, ↓reduceIte]

theorem elementsFrom_other (ho : t.isOneOf ['(', '[', '{'] = false)
    (hc : t.isOneOf [')', ']', '}'] = false) (h : ¬(depth = 0 ∧ t.isOneOf [','] = true)) :
    elementsFrom depth element (t :: ts) = elementsFrom depth (element ++ [t]) ts := by
  rw [elementsFrom.eq_def]
  simp only [ho, hc, h, Bool.false_eq_true, ↓reduceIte]

end Reading

/-- Tokens without the blanks at the front. -/
def dropBlanks (ts : List Token) : List Token := ts.dropWhile (Token.isOneOf [' '])

/-- The elements of a list in parentheses; `none` when the tokens form no such list. -/
def elements : List Token → Option (List (List Token))
  | [] => none
  | t :: ts =>
    if t.isOneOf ['('] then
      match elementsFrom 0 [] ts with
      | none => none
      | some [[]] => some []
      | some es => some (es.map dropBlanks)
    else none

/-! ## 4. Texts that hide their data -/

/-- Whether a text can be read and has no data outside of literals. -/
def Hidden (text : List Traced) : Prop := ∃ ts, lex text = some ts ∧ ∀ t ∈ ts, t.IsHidden

/-- The same of a text in front of which a literal has been opened. -/
def HiddenIn (text : List Traced) : Prop :=
  ∃ q, readQuoted isQuote text = some q ∧ q.closing.fromData = false ∧ Hidden q.rest

section Hiding

variable {x y : Traced} {xs : List Traced}

theorem hidden_bare (hx : isQuote x = false) :
    Hidden (x :: xs) ↔ x.fromData = false ∧ Hidden xs := by
  unfold Hidden
  rw [lex_bare hx]
  constructor
  · rintro ⟨ts, hts, h⟩
    obtain ⟨ts, hxs, rfl⟩ := Option.map_eq_some_iff.mp hts
    obtain ⟨ht, hrest⟩ := List.forall_mem_cons.mp h
    exact ⟨ht x (List.mem_singleton_self x), ts, hxs, hrest⟩
  · rintro ⟨hd, ts, hxs, h⟩
    refine ⟨_, by rw [hxs, Option.map_some], List.forall_mem_cons.mpr ⟨?_, h⟩⟩
    intro y hy
    rwa [List.mem_singleton.mp hy]

theorem hidden_quote (hx : isQuote x = true) :
    Hidden (x :: xs) ↔ x.fromData = false ∧ HiddenIn xs := by
  unfold Hidden HiddenIn
  cases hq : readQuoted isQuote xs with
  | none =>
    rw [lex_unterminated hx hq]
    simp only [reduceCtorEq, false_and, exists_false, and_false]
  | some q =>
    rw [lex_literal hx hq]
    constructor
    · rintro ⟨ts, hts, h⟩
      obtain ⟨ts, hr, rfl⟩ := Option.map_eq_some_iff.mp hts
      obtain ⟨ht, hrest⟩ := List.forall_mem_cons.mp h
      exact ⟨ht x List.mem_cons_self, q, rfl, ht _ (List.mem_cons_of_mem _ List.mem_cons_self),
        ts, hr, hrest⟩
    · rintro ⟨hd, _, hq', hc, ts, hr, h⟩
      cases hq'
      refine ⟨_, by rw [hr, Option.map_some], List.forall_mem_cons.mpr ⟨?_, h⟩⟩
      intro y hy
      simp only [Token.outside, List.mem_cons, List.not_mem_nil, or_false] at hy
      rcases hy with rfl | rfl
      · exact hd
      · exact hc

theorem hiddenIn_push {read : Option (Quoted Traced)} {z : Traced}
    (h : readQuoted isQuote xs = read.map (Quoted.push z)) :
    HiddenIn xs ↔ ∃ q, read = some q ∧ q.closing.fromData = false ∧ Hidden q.rest := by
  unfold HiddenIn
  rw [h]
  constructor
  · rintro ⟨_, hq, hc, hr⟩
    obtain ⟨q, rfl, rfl⟩ := Option.map_eq_some_iff.mp hq
    exact ⟨q, rfl, hc, hr⟩
  · rintro ⟨q, rfl, hc, hr⟩
    exact ⟨_, rfl, hc, hr⟩

/-- A character inside of a literal. -/
theorem hiddenIn_char (hx : isQuote x = false) : HiddenIn (x :: xs) ↔ HiddenIn xs :=
  hiddenIn_push (readQuoted_char hx)

/-- Two quotes inside of a literal. -/
theorem hiddenIn_pair (hx : isQuote x = true) (hy : isQuote y = true) :
    HiddenIn (x :: y :: xs) ↔ HiddenIn xs := hiddenIn_push (readQuoted_pair hx hy)

/-- One quote inside of a literal. -/
theorem hiddenIn_close (hx : isQuote x = true) (h : ∀ y ∈ xs.head?, isQuote y = false) :
    HiddenIn (x :: xs) ↔ x.fromData = false ∧ Hidden xs := by
  unfold HiddenIn
  rw [readQuoted_close hx h]
  constructor
  · rintro ⟨_, hq, hc, hr⟩
    cases hq
    exact ⟨hc, hr⟩
  · rintro ⟨hc, hr⟩
    exact ⟨_, rfl, hc, hr⟩

end Hiding

/-! ## 5. Stretches of text -/

/-- Whether a text does not continue a literal that ends in front of it. -/
def Follows (rest : List Traced) : Prop := ∀ x ∈ rest.head?, isQuote x = false

theorem Follows.append {text rest : List Traced} (h : Follows text) (hr : Follows rest) :
    Follows (text ++ rest) := by
  cases text with
  | nil => exact hr
  | cons x xs => exact h

/-- Whether a character neither begins nor ends anything, does not divide a list and is no blank. -/
def isPlain (c : Char) : Bool :=
  c != '\'' && !(['(', '[', '{'].contains c) && !([')', ']', '}'].contains c) &&
    !([',', ' '].contains c)

theorem isPlain_iff {c : Char} : isPlain c = true ↔
    c ≠ '\'' ∧ ['(', '[', '{'].contains c = false ∧ [')', ']', '}'].contains c = false ∧
      [',', ' '].contains c = false := by
  unfold isPlain
  simp only [Bool.and_eq_true, bne_iff_ne, Bool.not_eq_true', and_assoc]

theorem isQuote_bracket {c : Char} (h : c ∈ ['(', '[', '{'] ++ [')', ']', '}']) :
    isQuote ⟨c, false⟩ = false := by
  refine isMark_eq_false.mpr ?_
  rintro rfl
  revert h
  decide

/-- The token of a character that is put around the data, outside of literals. -/
def formToken (c : Char) : Token := .bare ⟨c, false⟩

/-- A stretch of text that is read by itself: its tokens are found wherever it stands, they hide the
    data, and they are part of one element as soon as `base` brackets are open. -/
structure Segment (base : Nat) (text : List Traced) (ts : List Token) : Prop where
  lexes : ∀ rest, Follows rest → lex (text ++ rest) = (lex rest).map (ts ++ ·)
  hidden : ∀ t ∈ ts, t.IsHidden
  nests : ∀ (depth : Nat) (element rest : List Token), base ≤ depth →
    elementsFrom depth element (ts ++ rest) = elementsFrom depth (element ++ ts) rest

namespace Segment

variable {base : Nat} {text text' : List Traced} {ts ts' : List Token}

theorem nil : Segment base [] [] where
  lexes rest _ := by simp only [List.nil_append, Option.map_id']
  hidden t ht := by cases ht
  nests depth element rest _ := by rw [List.nil_append, List.append_nil]

theorem append (h : Segment base text ts) (h' : Segment base text' ts') (hf : Follows text') :
    Segment base (text ++ text') (ts ++ ts') where
  lexes rest hr := by
    rw [List.append_assoc, h.lexes _ (hf.append hr), h'.lexes rest hr, Option.map_map]
    refine congrArg (Option.map · (lex rest)) (funext fun us => ?_)
    exact (List.append_assoc ts ts' us).symm
  hidden := List.forall_mem_append.mpr ⟨h.hidden, h'.hidden⟩
  nests depth element rest hb := by
    rw [List.append_assoc, h.nests _ _ _ hb, h'.nests _ _ _ hb, List.append_assoc]

theorem deeper {base' : Nat} (h : Segment base text ts) (hb : base ≤ base') :
    Segment base' text ts where
  lexes := h.lexes
  hidden := h.hidden
  nests depth element rest hd := h.nests depth element rest (Nat.le_trans hb hd)

/-- One character in front that is put around the data, by what it means for the elements. -/
theorem cons (h : Segment base text ts) {c : Char} (hq : c ≠ '\'')
    (hn : ∀ (depth : Nat) (element rest : List Token), base ≤ depth →
      elementsFrom depth element (formToken c :: rest) =
        elementsFrom depth (element ++ [formToken c]) rest) :
    Segment base (form [c] ++ text) (formToken c :: ts) where
  lexes rest hr := by
    have hc : isQuote ⟨c, false⟩ = false := isMark_eq_false.mpr hq
    show lex (⟨c, false⟩ :: (text ++ rest)) = _
    rw [lex_bare hc, h.lexes rest hr, Option.map_map]
    rfl
  hidden := by
    refine List.forall_mem_cons.mpr ⟨fun x hx => ?_, h.hidden⟩
    rw [List.mem_singleton.mp hx]
  nests depth element rest hb := by
    rw [List.cons_append, hn depth element _ hb, h.nests depth _ rest hb, List.append_assoc]
    rfl

theorem plain (h : Segment base text ts) {c : Char} (hc : isPlain c = true) :
    Segment base (form [c] ++ text) (formToken c :: ts) := by
  obtain ⟨hq, hopens, hcloses, hcomma⟩ := isPlain_iff.mp hc
  refine h.cons hq fun depth element rest _ => elementsFrom_other hopens hcloses fun h => ?_
  refine Bool.eq_false_iff.mp hcomma (List.contains_iff_mem.mpr ?_)
  exact List.mem_append_left [' '] (List.contains_iff_mem.mp h.2)

theorem blank (h : Segment base text ts) : Segment base (form [' '] ++ text) (formToken ' ' :: ts) :=
  h.cons (by decide) fun _ _ _ _ => elementsFrom_other rfl rfl fun h => Bool.false_ne_true h.2

theorem plains (h : Segment base text ts) {cs : List Char} (hcs : cs.all isPlain = true) :
    Segment base (form cs ++ text) (cs.map formToken ++ ts) := by
  induction cs with
  | nil => exact h
  | cons c cs ih =>
    obtain ⟨hc, hcs⟩ := Bool.and_eq_true_iff.mp hcs
    exact (ih hcs).plain hc

/-- A comma inside of brackets divides nothing. -/
theorem comma (h : Segment base text ts) (hb : 1 ≤ base) :
    Segment base (form [','] ++ text) (formToken ',' :: ts) := by
  refine h.cons (by decide) fun depth element rest hd => elementsFrom_other rfl rfl fun h => ?_
  have := h.1
  omega

/-- Brackets around a text whose commas need them. -/
theorem brackets (h : Segment 1 text ts) {l r : Char} (hl : l ∈ ['(', '[', '{'])
    (hr : r ∈ [')', ']', '}']) :
    Segment 0 (form [l] ++ text ++ form [r]) (formToken l :: ts ++ [formToken r]) := by
  have hlq : isQuote ⟨l, false⟩ = false := isQuote_bracket (List.mem_append_left _ hl)
  have hrq : isQuote ⟨r, false⟩ = false := isQuote_bracket (List.mem_append_right _ hr)
  have hl' : (formToken l).isOneOf ['(', '[', '{'] = true := List.contains_iff_mem.mpr hl
  have hr' : (formToken r).isOneOf [')', ']', '}'] = true := List.contains_iff_mem.mpr hr
  have hrl : (formToken r).isOneOf ['(', '[', '{'] = false := by
    simp only [List.mem_cons, List.not_mem_nil, or_false] at hr
    rcases hr with rfl | rfl | rfl <;> decide
  refine ⟨fun rest _ => ?_, ?_, fun depth element rest _ => ?_⟩
  · show lex (⟨l, false⟩ :: (text ++ form [r] ++ rest)) = _
    rw [List.append_assoc, lex_bare hlq, h.lexes _ (fun x hx => ?_)]
    · show Option.map _ (Option.map _ (lex (⟨r, false⟩ :: rest))) = _
      rw [lex_bare hrq, Option.map_map, Option.map_map]
      refine congrArg (Option.map · (lex rest)) (funext fun us => ?_)
      simp only [Function.comp_apply, List.cons_append, List.append_assoc, List.nil_append]
      rfl
    · rw [← Option.some.inj hx]
      exact hrq
  · refine List.forall_mem_append.mpr ⟨List.forall_mem_cons.mpr ⟨fun x hx => ?_, h.hidden⟩, ?_⟩
    · rw [List.mem_singleton.mp hx]
    · intro t ht x hx
      rw [List.mem_singleton.mp ht] at hx
      rw [List.mem_singleton.mp hx]
  · rw [List.cons_append, List.cons_append, List.append_assoc, elementsFrom_opening hl',
      h.nests _ _ _ (Nat.le_add_left 1 depth), List.singleton_append, elementsFrom_closing hrl hr']
    simp only [List.append_assoc, List.cons_append, List.nil_append]

/-- A literal that is put around data whose marks are doubled. -/
theorem literal (content : List Traced) :
    Segment base (form ['\''] ++ doubled isQuote content ++ form ['\''])
      [.literal ⟨'\'', false⟩ content ⟨'\'', false⟩] where
  lexes rest hr := by
    have hq : isQuote ⟨'\'', false⟩ = true := rfl
    have hread : readQuoted isQuote (doubled isQuote content ++ (form ['\''] ++ rest)) = _ :=
      readQuoted_doubled hq content hr
    rw [List.append_assoc, List.append_assoc]
    exact lex_literal hq hread
  hidden t ht x hx := by
    rw [List.mem_singleton.mp ht] at hx
    simp only [Token.outside, List.mem_cons, List.not_mem_nil, or_false] at hx
    rcases hx with rfl | rfl <;> rfl
  nests depth element rest _ := by
    exact elementsFrom_other rfl rfl fun h => Bool.false_ne_true h.2

/-- Hidden data stays hidden behind a segment. -/
theorem hidden_append {rest : List Traced} (h : Segment base text ts) (hr : Follows rest) :
    Hidden (text ++ rest) ↔ Hidden rest := by
  unfold Hidden
  rw [h.lexes rest hr]
  constructor
  · rintro ⟨us, hus, hh⟩
    obtain ⟨us, hlex, rfl⟩ := Option.map_eq_some_iff.mp hus
    exact ⟨us, hlex, (List.forall_mem_append.mp hh).2⟩
  · rintro ⟨us, hlex, hh⟩
    exact ⟨ts ++ us, by rw [hlex, Option.map_some], List.forall_mem_append.mpr ⟨h.hidden, hh⟩⟩

end Segment

/-! ## 6. Texts that keep their data or show it -/

/-- Data outside of literals shows. -/
theorem not_hidden_data (c : Char) (rest : List Traced) : ¬Hidden (⟨c, true⟩ :: rest) := by
  intro h
  cases hq : isQuote ⟨c, true⟩ with
  | true => exact Bool.noConfusion ((hidden_quote hq).mp h).1
  | false => exact Bool.noConfusion ((hidden_bare hq).mp h).1

/-- Data alone cannot close a literal in which it stands without showing. -/
theorem hiddenIn_of_data {rest : List Traced} (hr : Follows rest) {cs : List Char}
    (h : HiddenIn (data cs ++ rest)) : HiddenIn rest := by
  match cs with
  | [] => exact h
  | [c] =>
    cases hc : isQuote ⟨c, true⟩ with
    | false => exact (hiddenIn_char hc).mp h
    | true => exact Bool.noConfusion ((hiddenIn_close hc hr).mp h).1
  | c :: d :: cs =>
    cases hc : isQuote ⟨c, true⟩ with
    | false => exact @hiddenIn_of_data _ hr (d :: cs) ((hiddenIn_char hc).mp h)
    | true =>
      -- a second quote of the data keeps the literal open; any other character comes too late
      cases hd : isQuote ⟨d, true⟩ with
      | true => exact hiddenIn_of_data hr ((hiddenIn_pair hc hd).mp h)
      | false =>
        have hnext : ∀ y ∈ (data (d :: cs) ++ rest).head?, isQuote y = false := by
          intro y hy
          rw [← Option.some.inj hy]
          exact hd
        exact Bool.noConfusion ((hiddenIn_close hc hnext).mp h).1

/-- A literal in front of a literal with doubled marks is either left open by it, or shows. -/
theorem hiddenIn_of_doubled {x y : Traced} (hx : isQuote x = true) (hy : isQuote y = true)
    {cs : List Char} {rest : List Traced}
    (h : HiddenIn (x :: (doubled isQuote (data cs) ++ y :: rest))) : HiddenIn rest := by
  induction cs generalizing x with
  | nil => exact (hiddenIn_pair hx hy).mp h
  | cons c cs ih =>
    have hd : data (c :: cs) = ⟨c, true⟩ :: data cs := rfl
    cases hc : isQuote ⟨c, true⟩ with
    | true =>
      rw [hd, doubled_cons_mark hc] at h
      exact ih hc ((hiddenIn_pair hx hc).mp h)
    | false =>
      rw [hd, doubled_cons_char hc] at h
      have hnext : ∀ z ∈ (⟨c, true⟩ :: doubled isQuote (data cs) ++ y :: rest).head?,
          isQuote z = false := by
        intro z hz
        rw [← Option.some.inj hz]
        exact hc
      exact absurd ((hiddenIn_close hx hnext).mp h).2 (not_hidden_data c _)

/-- What a reader makes of a text wherever it stands, as `kept` has it: the data is kept inside of
    literals, and the text is a segment; or some of it shows. In both cases a literal that was open
    in front of the text is still open behind it, when nothing has shown. -/
structure Judged (base : Nat) (kept : Bool) (text : List Traced) : Prop where
  segment : kept = true → ∃ ts, Segment base text ts
  leaks : kept = false → ∀ rest, Follows rest → ¬HiddenIn rest → ¬Hidden (text ++ rest)
  staysOpen : ∀ rest, Follows rest → HiddenIn (text ++ rest) → HiddenIn rest

namespace Judged

variable {base : Nat} {kept kept' : Bool} {text text' : List Traced}

theorem nil : Judged base true [] where
  segment _ := ⟨[], .nil⟩
  leaks h := Bool.noConfusion h
  staysOpen _ _ h := h

theorem deeper {base' : Nat} (h : Judged base kept text) (hb : base ≤ base') :
    Judged base' kept text where
  segment hk := (h.segment hk).imp fun _ hs => hs.deeper hb
  leaks := h.leaks
  staysOpen := h.staysOpen

theorem append (h : Judged base kept text) (h' : Judged base kept' text') (hf : Follows text') :
    Judged base (kept && kept') (text ++ text') where
  segment hk := by
    obtain ⟨hk, hk'⟩ := Bool.and_eq_true_iff.mp hk
    obtain ⟨ts, hs⟩ := h.segment hk
    obtain ⟨ts', hs'⟩ := h'.segment hk'
    exact ⟨ts ++ ts', hs.append hs' hf⟩
  leaks hk rest hr hn hh := by
    rw [List.append_assoc] at hh
    cases kept with
    | false => exact h.leaks rfl _ (hf.append hr) (fun ho => hn (h'.staysOpen rest hr ho)) hh
    | true =>
      obtain ⟨ts, hs⟩ := h.segment rfl
      exact h'.leaks hk rest hr hn ((hs.hidden_append (hf.append hr)).mp hh)
  staysOpen rest hr ho := by
    rw [List.append_assoc] at ho
    exact h'.staysOpen rest hr (h.staysOpen _ (hf.append hr) ho)

/-- One character in front that is put around the data. -/
theorem cons (h : Judged base kept text) {c : Char} (hq : c ≠ '\'')
    (hs : ∀ ts, Segment base text ts → Segment base (form [c] ++ text) (formToken c :: ts)) :
    Judged base kept (form [c] ++ text) where
  segment hk := (h.segment hk).imp' _ hs
  leaks hk rest hr hn hh :=
    h.leaks hk rest hr hn ((hidden_bare (isMark_eq_false.mpr hq)).mp hh).2
  staysOpen rest hr ho := h.staysOpen rest hr ((hiddenIn_char (isMark_eq_false.mpr hq)).mp ho)

theorem plain (h : Judged base kept text) {c : Char} (hc : isPlain c = true) :
    Judged base kept (form [c] ++ text) := h.cons (isPlain_iff.mp hc).1 fun _ hs => hs.plain hc

theorem plains (h : Judged base kept text) {cs : List Char} (hcs : cs.all isPlain = true) :
    Judged base kept (form cs ++ text) := by
  induction cs with
  | nil => exact h
  | cons c cs ih =>
    obtain ⟨hc, hcs⟩ := Bool.and_eq_true_iff.mp hcs
    exact (ih hcs).plain hc

theorem blank (h : Judged base kept text) : Judged base kept (form [' '] ++ text) :=
  h.cons (by decide) fun _ hs => hs.blank

/-- A text that means nothing to a reader. -/
theorem ofPlain {cs : List Char} (hcs : cs.all isPlain = true) :
    Judged base true (form cs) := by
  rw [← List.append_nil (form cs)]
  exact nil.plains hcs

theorem comma (h : Judged base kept text) (hb : 1 ≤ base) : Judged base kept (form [','] ++ text) :=
  h.cons (by decide) fun _ hs => hs.comma hb

theorem brackets (h : Judged 1 kept text) {l r : Char} (hl : l ∈ ['(', '[', '{'])
    (hr : r ∈ [')', ']', '}']) : Judged 0 kept (form [l] ++ text ++ form [r]) := by
  have hlq : isQuote ⟨l, false⟩ = false := isQuote_bracket (List.mem_append_left _ hl)
  have hrq : isQuote ⟨r, false⟩ = false := isQuote_bracket (List.mem_append_right _ hr)
  have hfollows : ∀ rest, Follows (⟨r, false⟩ :: rest) := fun rest x hx => by
    rw [← Option.some.inj hx]
    exact hrq
  refine ⟨fun hk => ?_, fun hk rest _ hn hh => ?_, fun rest _ ho => ?_⟩
  · obtain ⟨ts, hs⟩ := h.segment hk
    exact ⟨_, hs.brackets hl hr⟩
  · rw [List.append_assoc] at hh
    refine h.leaks hk _ (hfollows rest) (fun ho => hn ?_) ((hidden_bare hlq).mp hh).2
    exact (hiddenIn_char hrq).mp ho
  · rw [List.append_assoc] at ho
    exact (hiddenIn_char hrq).mp (h.staysOpen _ (hfollows rest) ((hiddenIn_char hlq).mp ho))

/-- A literal whose data has its marks doubled. -/
theorem literal (cs : List Char) :
    Judged base true (form ['\''] ++ doubled isQuote (data cs) ++ form ['\'']) where
  segment _ := ⟨_, .literal (data cs)⟩
  leaks h := Bool.noConfusion h
  staysOpen rest _ ho := by
    rw [List.append_assoc] at ho
    exact hiddenIn_of_doubled (x := ⟨'\'', false⟩) rfl rfl ho

/-- Data that nothing is put around. -/
theorem data {cs : List Char} (hne : cs ≠ []) : Judged base false (data cs) where
  segment h := Bool.noConfusion h
  leaks _ rest _ _ := by
    obtain ⟨c, cs, rfl⟩ := List.exists_cons_of_ne_nil hne
    exact not_hidden_data c _
  staysOpen _ hr ho := hiddenIn_of_data hr ho

end Judged

end SqlTemplate.Sql
