import Mathlib.Data.List.Basic
import Mathlib.Data.Nat.Init
import SqlTemplate.Sql

/-!
# Reading quoted text

What a reader of SQL makes of quoted text: a mark that stands twice is a mark of the content, and
the first one that stands alone ends it.

* `readQuoted`: the content up to the closing mark, for characters of any kind;
* `lexQuoted`, `lexName`: a quoted text, and quoted parts with dots between them, at the front of a
  text, with what follows;
* `lexQuoted_eq_some`, `lexName_eq_some`: these are read from the texts that `enclose` writes, and
  from no other text;
* `quoting_decodable`: a literal and a name give back the text they were made from, whatever
  follows that does not continue them.
-/

namespace SqlTemplate

/-! ## 1. Parts of a text -/

namespace Text

theorem splitAll_eq (sep : Char) (cs : List Char) : splitAll sep cs = cs.splitOn sep := by
  induction cs with
  | nil => rfl
  | cons c cs ih =>
    unfold splitAll List.splitOn
    rw [List.splitOnP_cons_eq_if_modifyHead, ih]
    simp only [beq_iff_eq]
    cases h : cs.splitOn sep with
    | nil => exact absurd h (List.splitOn_ne_nil _ _)
    | cons part parts =>
      unfold List.splitOn at h
      rw [h]
      rfl

theorem joinWith_eq (sep : List Char) (parts : List (List Char)) :
    joinWith sep parts = sep.intercalate parts := by
  fun_induction joinWith sep parts with
  | case1 => rfl
  | case2 part => exact List.intercalate_singleton.symm
  | case3 part parts hne ih =>
    obtain ⟨next, parts, rfl⟩ := List.exists_cons_of_ne_nil hne
    rw [ih, List.intercalate_cons_cons]

end Text

namespace Sql

/-! ## 2. Reading -/

/-- What has been read of a quoted text behind its opening mark. -/
structure Quoted (α : Type) where
  content : List α
  /-- The mark that ends the content. -/
  closing : α
  /-- What follows that mark. -/
  rest : List α

/-- One more element at the front of the content. -/
def Quoted.push {α : Type} (x : α) (q : Quoted α) : Quoted α := { q with content := x :: q.content }

/-- Reads a quoted text whose opening mark has been read; `none` when no mark ends it. -/
def readQuoted {α : Type} (isMark : α → Bool) : List α → Option (Quoted α)
  | [] => none
  | x :: xs =>
    if isMark x then
      match xs with
      | [] => some ⟨[], x, []⟩
      | y :: ys =>
        if isMark y then (readQuoted isMark ys).map (Quoted.push x) else some ⟨[], x, y :: ys⟩
    else (readQuoted isMark xs).map (Quoted.push x)

section Reading

variable {α : Type} {isMark : α → Bool} {x y : α} {xs : List α}

theorem readQuoted_char (hx : isMark x = false) :
    readQuoted isMark (x :: xs) = (readQuoted isMark xs).map (Quoted.push x) := by
  rw [readQuoted.eq_def]
  simp only [hx, Bool.false_eq_true, ↓reduceIte]

theorem readQuoted_pair (hx : isMark x = true) (hy : isMark y = true) :
    readQuoted isMark (x :: y :: xs) = (readQuoted isMark xs).map (Quoted.push x) := by
  rw [readQuoted.eq_def]
  simp only [hx, hy, ↓reduceIte]

/-- A mark that no second one follows ends the content. -/
theorem readQuoted_close (hx : isMark x = true) (h : ∀ y ∈ xs.head?, isMark y = false) :
    readQuoted isMark (x :: xs) = some ⟨[], x, xs⟩ := by
  rw [readQuoted.eq_def]
  cases xs with
  | nil => exact if_pos hx
  | cons y ys =>
    have hy := h y rfl
    simp only [hx, hy, ↓reduceIte, Bool.false_eq_true]

end Reading

/-- Whether a character is the given mark. -/
def isMark (mark c : Char) : Bool := c == mark

theorem isMark_self (mark : Char) : isMark mark mark = true := beq_self_eq_true mark

theorem isMark_eq_false {mark c : Char} : isMark mark c = false ↔ c ≠ mark := beq_eq_false_iff_ne

theorem eq_of_isMark {mark c : Char} (h : isMark mark c = true) : c = mark := eq_of_beq h

/-- The content of the quoted text at the front, and what follows it. -/
def lexQuoted (mark : Char) : List Char → Option (List Char × List Char)
  | [] => none
  | c :: cs =>
    if c = mark then (readQuoted (isMark mark) cs).map fun q => (q.content, q.rest) else none

/-- The content of the string literal at the front, and what follows it. -/
def lexLiteral (text : List Char) : Option (List Char × List Char) := lexQuoted '\'' text

theorem length_readQuoted {α : Type} {isMark : α → Bool} {xs : List α} {q : Quoted α}
    (h : readQuoted isMark xs = some q) : q.rest.length < xs.length := by
  fun_induction readQuoted isMark xs generalizing q with
  | case1 => cases h
  | case2 x hx => cases h; exact Nat.zero_lt_one
  | case3 x hx y ys hy ih =>
    obtain ⟨q', hq, rfl⟩ := Option.map_eq_some_iff.mp h
    have := ih hq
    simp only [Quoted.push, List.length_cons]
    omega
  | case4 x hx y ys hy => cases h; exact Nat.lt_succ_self _
  | case5 x xs hx ih =>
    obtain ⟨q', hq, rfl⟩ := Option.map_eq_some_iff.mp h
    have := ih hq
    exact Nat.lt_succ_of_lt this

theorem length_lexQuoted {mark : Char} {text content rest : List Char}
    (h : lexQuoted mark text = some (content, rest)) : rest.length < text.length := by
  cases text with
  | nil => cases h
  | cons c cs =>
    rw [lexQuoted] at h
    split at h
    · obtain ⟨q, hq, hr⟩ := Option.map_eq_some_iff.mp h
      have := length_readQuoted hq
      cases hr
      exact Nat.lt_succ_of_lt this
    · cases h

/-- The parts of the name at the front, and what follows it. A dot belongs to the name when a quoted
    part stands behind it. -/
def lexName (text : List Char) : Option (List (List Char) × List Char) :=
  match _h : lexQuoted '"' text with
  | none => none
  | some (part, rest) =>
    match rest with
    | '.' :: '"' :: more => (lexName ('"' :: more)).map fun (parts, rest) => (part :: parts, rest)
    | rest => some ([part], rest)
termination_by text.length
decreasing_by
  have := length_lexQuoted _h
  simp only [List.length_cons] at this ⊢
  omega

/-! ## 3. Quoted texts -/

/-- The content of a quoted text as it stands between the marks. -/
def doubled {α : Type} (isMark : α → Bool) (xs : List α) : List α :=
  xs.flatMap fun x => if isMark x then [x, x] else [x]

section Doubled

variable {α : Type} {isMark : α → Bool} {x : α} {xs rest : List α}

theorem doubled_cons_mark (hx : isMark x = true) (xs : List α) :
    doubled isMark (x :: xs) = x :: x :: doubled isMark xs := by
  unfold doubled
  rw [List.flatMap_cons, if_pos hx]
  rfl

theorem doubled_cons_char (hx : isMark x = false) (xs : List α) :
    doubled isMark (x :: xs) = x :: doubled isMark xs := by
  unfold doubled
  rw [List.flatMap_cons, if_neg (Bool.eq_false_iff.mp hx)]
  rfl

/-- A content without marks stands as it is. -/
theorem doubled_of_forall (h : ∀ x ∈ xs, isMark x = false) : doubled isMark xs = xs := by
  induction xs with
  | nil => rfl
  | cons x xs ih =>
    obtain ⟨hx, hxs⟩ := List.forall_mem_cons.mp h
    rw [doubled_cons_char hx, ih hxs]

/-- Reading stops behind the content that has been written, and nowhere earlier. -/
theorem readQuoted_doubled (hx : isMark x = true) (content : List α)
    (h : ∀ y ∈ rest.head?, isMark y = false) :
    readQuoted isMark (doubled isMark content ++ x :: rest) = some ⟨content, x, rest⟩ := by
  induction content with
  | nil => exact readQuoted_close hx h
  | cons c content ih =>
    cases hc : isMark c with
    | true =>
      rw [doubled_cons_mark hc, List.cons_append, List.cons_append, readQuoted_pair hc hc, ih]
      rfl
    | false =>
      rw [doubled_cons_char hc, List.cons_append, readQuoted_char hc, ih]
      rfl

end Doubled

section Marks

variable {mark : Char} {text content rest : List Char}

theorem enclose_eq (mark : Char) (cs : List Char) :
    enclose mark cs = mark :: (doubled (isMark mark) cs ++ [mark]) := by
  unfold enclose doubled
  refine congrArg (fun f => mark :: (cs.flatMap f ++ [mark])) (funext fun c => ?_)
  cases hc : isMark mark c with
  | true => rw [if_pos (eq_of_isMark hc), eq_of_isMark hc, if_pos rfl]
  | false => rw [if_neg (isMark_eq_false.mp hc), if_neg Bool.false_ne_true]

theorem enclose_append (mark : Char) (cs rest : List Char) :
    enclose mark cs ++ rest = mark :: (doubled (isMark mark) cs ++ mark :: rest) := by
  rw [enclose_eq, List.cons_append, List.append_assoc, List.singleton_append]

/-- Whether a text does not begin with a mark. -/
theorem head?_ne_iff : rest.head? ≠ some mark ↔ ∀ c ∈ rest.head?, isMark mark c = false := by
  constructor
  · intro h c hc
    refine isMark_eq_false.mpr ?_
    rintro rfl
    exact h hc
  · intro h hm
    exact isMark_eq_false.mp (h mark hm) rfl

/-- What is read has been written: the content with its marks doubled and a closing mark. -/
theorem eq_doubled_of_readQuoted {q : Quoted Char} (h : readQuoted (isMark mark) text = some q) :
    text = doubled (isMark mark) q.content ++ mark :: q.rest ∧ q.rest.head? ≠ some mark := by
  fun_induction readQuoted (isMark mark) text generalizing q with
  | case1 => cases h
  | case2 c hc =>
    cases h
    obtain rfl := eq_of_isMark hc
    exact ⟨rfl, fun h => (nomatch h)⟩
  | case3 c hc d cs hd ih =>
    obtain ⟨q', hq, rfl⟩ := Option.map_eq_some_iff.mp h
    obtain ⟨rfl, hr⟩ := ih hq
    obtain rfl := eq_of_isMark hc
    obtain rfl := eq_of_isMark hd
    refine ⟨?_, hr⟩
    show _ = doubled (isMark d) (d :: q'.content) ++ d :: q'.rest
    rw [doubled_cons_mark hc]
    rfl
  | case4 c hc d cs hd =>
    cases h
    obtain rfl := eq_of_isMark hc
    refine ⟨rfl, fun h => hd ?_⟩
    rw [Option.some.inj h]
    exact isMark_self c
  | case5 c cs hc ih =>
    obtain ⟨q', hq, rfl⟩ := Option.map_eq_some_iff.mp h
    obtain ⟨rfl, hr⟩ := ih hq
    refine ⟨?_, hr⟩
    show _ = doubled (isMark mark) (c :: q'.content) ++ mark :: q'.rest
    rw [doubled_cons_char (Bool.eq_false_iff.mpr hc)]
    rfl

/-- **A quoted text is read from the text that `enclose` writes, and from no other one.** -/
theorem lexQuoted_eq_some : lexQuoted mark text = some (content, rest) ↔
    text = enclose mark content ++ rest ∧ rest.head? ≠ some mark := by
  constructor
  · intro h
    cases text with
    | nil => cases h
    | cons c cs =>
      rw [lexQuoted] at h
      split at h
      · rename_i hc
        subst hc
        obtain ⟨q, hq, hr⟩ := Option.map_eq_some_iff.mp h
        obtain ⟨rfl, hend⟩ := eq_doubled_of_readQuoted hq
        cases hr
        exact ⟨(enclose_append _ _ _).symm, hend⟩
      · cases h
  · rintro ⟨rfl, h⟩
    rw [enclose_append, lexQuoted, if_pos rfl,
      readQuoted_doubled (isMark_self mark) content (head?_ne_iff.mp h)]
    rfl

end Marks

example : lexLiteral ['\'', 'a', '\'', '\'', '\'', ' '] = some (['a', '\''], [' ']) := by decide

/-! ## 4. Names -/

/-- The quoted parts of a name with dots between them. -/
def printName (parts : List (List Char)) : List Char :=
  ['.'].intercalate (parts.map (enclose '"'))

/-- Whether a name ends in front of a text: the text neither continues its last part nor adds one. -/
def EndsName (rest : List Char) : Prop := rest.head? ≠ some '"' ∧ ¬['.', '"'] <+: rest

theorem printName_singleton (part : List Char) : printName [part] = enclose '"' part :=
  List.intercalate_singleton

theorem printName_cons_cons (part next : List Char) (parts : List (List Char)) :
    printName (part :: next :: parts) = enclose '"' part ++ '.' :: printName (next :: parts) := by
  unfold printName
  rw [List.map_cons, List.map_cons, List.intercalate_cons_cons, List.append_assoc]
  rfl

theorem head?_printName (part : List Char) (parts : List (List Char)) :
    ∃ more, printName (part :: parts) = '"' :: more := by
  cases parts with
  | nil => exact ⟨_, printName_singleton part⟩
  | cons next parts => exact ⟨_, printName_cons_cons part next parts⟩

/-- A name of one part. -/
theorem lexName_last {text part rest : List Char} (h : lexQuoted '"' text = some (part, rest))
    (hr : ¬['.', '"'] <+: rest) : lexName text = some ([part], rest) := by
  rw [lexName]
  split
  · rename_i hn
    cases h.symm.trans hn
  · rename_i part' rest' hs
    cases h.symm.trans hs
    split
    · exact absurd ⟨_, rfl⟩ hr
    · rfl

/-- A name of several parts. -/
theorem lexName_next {text part more : List Char}
    (h : lexQuoted '"' text = some (part, '.' :: '"' :: more)) :
    lexName text = (lexName ('"' :: more)).map fun (parts, rest) => (part :: parts, rest) := by
  rw [lexName]
  split
  · rename_i hn
    cases h.symm.trans hn
  · rename_i part' rest' hs
    cases h.symm.trans hs
    rfl

/-- **A name is read from the text that `printName` writes, and from no other one.** -/
theorem lexName_eq_some {text rest : List Char} {parts : List (List Char)} :
    lexName text = some (parts, rest) ↔
      parts ≠ [] ∧ text = printName parts ++ rest ∧ EndsName rest := by
  constructor
  · intro h
    fun_induction lexName text generalizing parts rest with
    | case1 => cases h
    | case2 text part more hq _ ih =>
      obtain ⟨⟨parts', rest'⟩, hn, hr⟩ := Option.map_eq_some_iff.mp h
      cases hr
      obtain ⟨hne, ht, hend⟩ := ih hn
      obtain ⟨next, parts, rfl⟩ := List.exists_cons_of_ne_nil hne
      refine ⟨List.cons_ne_nil _ _, ?_, hend⟩
      rw [(lexQuoted_eq_some.mp hq).1, ht, printName_cons_cons, List.append_assoc]
      rfl
    | case3 text part rest' hq hlast =>
      cases h
      obtain ⟨rfl, hr⟩ := lexQuoted_eq_some.mp hq
      refine ⟨List.cons_ne_nil _ _, by rw [printName_singleton], hr, ?_⟩
      rintro ⟨more, rfl⟩
      exact hlast more hq rfl HEq.rfl
  · rintro ⟨hne, rfl, hend⟩
    induction parts with
    | nil => exact absurd rfl hne
    | cons part parts ih =>
      cases parts with
      | nil =>
        rw [printName_singleton]
        exact lexName_last (lexQuoted_eq_some.mpr ⟨rfl, hend.1⟩) hend.2
      | cons next parts =>
        obtain ⟨more, hmore⟩ := head?_printName next parts
        have ih := ih (List.cons_ne_nil _ _)
        have ht : printName (part :: next :: parts) ++ rest =
            enclose '"' part ++ '.' :: '"' :: (more ++ rest) := by
          rw [printName_cons_cons, hmore, List.append_assoc]
          rfl
        rw [hmore] at ih
        rw [ht, lexName_next (lexQuoted_eq_some.mpr ⟨rfl, fun h => (nomatch h)⟩)]
        rw [List.cons_append] at ih
        rw [ih]
        rfl

/-! ## 5. Literals and names of texts -/

theorem toList_quote (value : String) : (quote value).toList = enclose '\'' value.toList :=
  String.toList_ofList

theorem toList_identifier (value : String) :
    (identifier value).toList = printName (value.toList.splitOn '.') := by
  unfold identifier printName
  rw [String.toList_ofList, Text.joinWith_eq, Text.splitAll_eq]

theorem lexLiteral_quote (value : String) :
    lexLiteral (quote value).toList = some (value.toList, []) := by
  refine lexQuoted_eq_some.mpr ⟨?_, fun h => (nomatch h)⟩
  rw [toList_quote, List.append_nil]

theorem lexName_identifier (value : String) :
    lexName (identifier value).toList = some (value.toList.splitOn '.', []) := by
  refine lexName_eq_some.mpr ⟨List.splitOn_ne_nil _ _, ?_, fun h => (nomatch h), fun h => ?_⟩
  · rw [toList_identifier, List.append_nil]
  · cases List.prefix_nil.mp h

/-- **Quoting can be undone, and a quoted text ends where it was ended.** A literal that no quote
    follows is read to its end and no further, and gives the value back; a name gives the parts of
    the value between the dots. No other text is read so, and different values have different
    literals and different names. -/
theorem quoting_decodable (value : String) (text rest : List Char) :
    (lexLiteral text = some (value.toList, rest) ↔
        text = (quote value).toList ++ rest ∧ rest.head? ≠ some '\'') ∧
      (lexName text = some (value.toList.splitOn '.', rest) ↔
        text = (identifier value).toList ++ rest ∧
          rest.head? ≠ some '"' ∧ ¬['.', '"'] <+: rest) ∧
      quote.Injective ∧ identifier.Injective := by
  refine ⟨?_, ?_, ?_, ?_⟩
  · rw [toList_quote]
    exact lexQuoted_eq_some
  · rw [toList_identifier, lexName_eq_some]
    exact and_iff_right (List.splitOn_ne_nil _ _)
  · intro v w h
    have hv := lexLiteral_quote v
    rw [h, lexLiteral_quote w, Option.some.injEq, Prod.mk.injEq] at hv
    exact (String.toList_inj.mp hv.1).symm
  · intro v w h
    have hv := lexName_identifier v
    rw [h, lexName_identifier w, Option.some.injEq, Prod.mk.injEq] at hv
    have hjoin := congrArg (['.'].intercalate ·) hv.1
    simp only [List.intercalate_splitOn] at hjoin
    exact (String.toList_inj.mp hjoin).symm

end Sql

end SqlTemplate
