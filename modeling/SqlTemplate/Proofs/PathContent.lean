import Mathlib.Data.List.Basic
import Mathlib.Data.List.TakeWhile
import SqlTemplate.Placeholder
import SqlTemplate.Proofs.Entries

/-!
# Contents that name a path

The content of a bind placeholder that asks for a property, and what the renaming of loop variables
does to it.

* `PathContent`: blanks, a path, and what follows the path;
* `IsVariable`: what an identifier satisfies as the name of a loop variable;
* `PathContent.rename_other`, `PathContent.rename_text`: renaming changes a content just when its
  path starts with the variable, and then it changes the first name alone.
-/

namespace SqlTemplate

open Text (isBlank)

/-! ## 1. Cutting at a boundary -/

theorem takeWhile_stop {p : Char → Bool} {xs ys : List Char} (hx : ∀ c ∈ xs, p c = true)
    (hy : ∀ c, ys.head? = some c → p c = false) : (xs ++ ys).takeWhile p = xs := by
  rw [List.takeWhile_append_of_pos hx]
  cases ys with
  | nil => exact List.append_nil xs
  | cons c ys =>
    have hc : ¬p c = true := ne_true_of_eq_false (hy c rfl)
    rw [List.takeWhile_cons_of_neg hc, List.append_nil]

theorem dropWhile_stop {p : Char → Bool} {xs ys : List Char} (hx : ∀ c ∈ xs, p c = true)
    (hy : ∀ c, ys.head? = some c → p c = false) : (xs ++ ys).dropWhile p = ys := by
  rw [List.dropWhile_append_of_pos hx]
  cases ys with
  | nil => rfl
  | cons c ys =>
    have hc : ¬p c = true := ne_true_of_eq_false (hy c rfl)
    exact List.dropWhile_cons_of_neg hc

theorem dropWhile_at_stop {p : Char → Bool} {cs : List Char}
    (h : ∀ c, cs.head? = some c → p c = false) : cs.dropWhile p = cs := by
  have hs : ([] ++ cs).dropWhile p = cs := dropWhile_stop (fun _ hc => absurd hc List.not_mem_nil) h
  exact hs

/-- What is cut at both ends of a text that neither begins nor ends with it. -/
theorem trimBy_between {p : Char → Bool} {xs ys zs : List Char} (hx : ∀ c ∈ xs, p c = true)
    (hstart : ∀ c, ys.head? = some c → p c = false)
    (hstop : ∀ c, ys.getLast? = some c → p c = false) (hz : ∀ c ∈ zs, p c = true) :
    Text.trimBy p (xs ++ ys ++ zs) = ys := by
  cases ys with
  | nil =>
    have hall : ∀ c ∈ xs ++ [] ++ zs, p c = true := by
      intro c hc
      rw [List.append_nil] at hc
      exact (List.mem_append.mp hc).elim (hx c) (hz c)
    unfold Text.trimBy Text.trimStartBy
    rw [List.dropWhile_eq_nil_iff.mpr hall]
    rfl
  | cons d ys =>
    have hcut : Text.trimStartBy p (xs ++ (d :: ys) ++ zs) = d :: ys ++ zs := by
      unfold Text.trimStartBy
      rw [List.append_assoc]
      exact dropWhile_stop hx hstart
    unfold Text.trimBy
    rw [hcut]
    unfold Text.trimEndBy
    rw [List.reverse_append, dropWhile_stop (fun c hc => hz c (List.mem_reverse.mp hc)),
      List.reverse_reverse]
    intro c hc
    exact hstop c (List.head?_reverse ▸ hc)

/-- Blanks at both ends of a text without blanks. -/
theorem trim_blanks {xs ys zs : List Char} (hx : ∀ c ∈ xs, isBlank c = true)
    (hy : ∀ c ∈ ys, isBlank c = false) (hz : ∀ c ∈ zs, isBlank c = true) :
    Text.trim (xs ++ ys ++ zs) = ys :=
  trimBy_between hx (fun c hc => hy c (List.mem_of_mem_head? hc))
    (fun c hc => hy c (List.mem_of_getLast? hc)) hz

theorem trim_of_not_blank {cs : List Char} (h : ∀ c ∈ cs, isBlank c = false) : Text.trim cs = cs := by
  have hnil : ∀ c ∈ ([] : List Char), isBlank c = true := fun _ hc => absurd hc List.not_mem_nil
  have ht : Text.trim ([] ++ cs ++ []) = cs := trim_blanks hnil h hnil
  rw [List.nil_append, List.append_nil] at ht
  exact ht

/-! ## 2. Contents -/

/-- Whether a character ends the name that a path starts with. -/
def endsRoot (c : Char) : Bool := c == '.' || c == '['

/-- Whether a character may stand in a path. Blanks, commas and colons may not. -/
def isPathChar (c : Char) : Bool := !(isBlank c || c == ',' || c == ':')

/-- The content of a placeholder that asks for a property: blanks, a path, and behind blanks a type
    or options, if there are any. -/
structure PathContent where
  lead : List Char
  path : List Char
  rest : List Char
  lead_blank : ∀ c ∈ lead, isBlank c = true
  path_chars : ∀ c ∈ path, isPathChar c = true
  path_ne : path ≠ []
  /-- A path does not start with a dot, nor with what would not be read as a path. -/
  path_start : ∀ c, path.head? = some c → c ≠ '.' ∧ c ≠ '(' ∧ Placeholder.isSkipped c = false
  rest_start : ∀ c, (Text.trimStart rest).head? = some c → c = ',' ∨ c = ':'

namespace PathContent

variable (p : PathContent)

/-- The whole content. -/
def text : List Char := p.lead ++ p.path ++ p.rest

/-- The name that the path starts with; empty when it starts with a bracket. -/
def root : List Char := p.path.takeWhile fun c => !endsRoot c

/-- The path behind its first name. -/
def tail : List Char := p.path.dropWhile fun c => !endsRoot c

/-- The name that the path starts with. -/
def rootName : String := String.ofList p.root

theorem root_append_tail : p.root ++ p.tail = p.path := List.takeWhile_append_dropWhile

theorem not_blank_of_mem {c : Char} (h : c ∈ p.path) : isBlank c = false := by
  have hc := p.path_chars c h
  unfold isPathChar at hc
  cases hb : isBlank c with
  | false => rfl
  | true =>
    rw [hb] at hc
    cases hc

theorem mem_path_of_root {c : Char} (h : c ∈ p.root) : c ∈ p.path := by
  rw [← p.root_append_tail]
  exact List.mem_append_left _ h

theorem head?_path_append (ys : List Char) : (p.path ++ ys).head? = p.path.head? := by
  cases hp : p.path with
  | nil => exact absurd hp p.path_ne
  | cons c cs => rfl

theorem trimStart_text : Text.trimStart p.text = p.path ++ p.rest := by
  unfold text Text.trimStart Text.trimStartBy
  rw [List.append_assoc]
  refine dropWhile_stop p.lead_blank fun c hc => ?_
  rw [head?_path_append] at hc
  exact p.not_blank_of_mem (List.mem_of_mem_head? hc)

end PathContent

/-! ## 3. Renaming the first name -/

/-- Whether a character can stand in the name of a loop variable. Every letter, every digit and the
    underscore can. -/
def isNameChar (c : Char) : Bool :=
  !(isBlank c || c == '.' || c == ',' || c == ':' || c == '[' || c == '}' || c == escapeChar)

/-- Whether a name is one that a loop variable can have. Every identifier is. -/
def IsVariable (name : String) : Prop :=
  name.toList ≠ [] ∧ ∀ c ∈ name.toList, isNameChar c = true

theorem isVariable_iff {name : String} :
    IsVariable name ↔ (!name.toList.isEmpty && name.toList.all isNameChar) = true := by
  unfold IsVariable
  rw [Bool.and_eq_true, Bool.not_eq_true', List.isEmpty_eq_false_iff, List.all_eq_true]

instance (name : String) : Decidable (IsVariable name) := decidable_of_iff _ isVariable_iff.symm

/-- Whether a character ends a name in a content. -/
def endsNameChar (c : Char) : Bool := isBlank c || c == '.' || c == ',' || c == ':' || c == '['

theorem endsName_iff {cs : List Char} :
    endsName cs = true ↔ ∀ c, cs.head? = some c → endsNameChar c = true := by
  cases cs with
  | nil =>
    constructor
    · intro _ c hc
      cases hc
    · intro _
      rfl
  | cons c cs =>
    constructor
    · intro h d hd
      cases hd
      exact h
    · intro h
      exact h c rfl

theorem not_endsNameChar {c : Char} (h : isNameChar c = true) : endsNameChar c = false := by
  unfold isNameChar at h
  unfold endsNameChar
  cases he : isBlank c || c == '.' || c == ',' || c == ':' || c == '[' with
  | false => rfl
  | true =>
    rw [he] at h
    cases h

/-- Two names with an end behind them part one text in the same way. -/
theorem split_name {xs ys r s : List Char} (hx : ∀ c ∈ xs, endsNameChar c = false)
    (hy : ∀ c ∈ ys, endsNameChar c = false) (hr : endsName r = true) (hs : endsName s = true)
    (h : xs ++ r = ys ++ s) : xs = ys ∧ r = s := by
  have cut {zs t : List Char} (hz : ∀ c ∈ zs, endsNameChar c = false) (ht : endsName t = true) :
      (zs ++ t).takeWhile (fun c => !endsNameChar c) = zs := by
    refine takeWhile_stop (fun c hc => by rw [hz c hc]; rfl) fun c hc => ?_
    rw [endsName_iff.mp ht c hc]
    rfl
  have hxy : xs = ys := by rw [← cut hx hr, h, cut hy hs]
  subst hxy
  exact ⟨rfl, List.append_cancel_left h⟩

namespace PathContent

variable (p : PathContent)

theorem not_endsNameChar_of_root {c : Char} (h : c ∈ p.root) : endsNameChar c = false := by
  have hc := p.path_chars c (p.mem_path_of_root h)
  have he : (!endsRoot c) = true :=
    List.mem_takeWhile_imp (p := fun c => !endsRoot c) (l := p.path) h
  unfold isPathChar at hc
  unfold endsRoot at he
  unfold endsNameChar
  simp only [Bool.not_eq_true', Bool.or_eq_false_iff] at hc he ⊢
  exact ⟨⟨⟨⟨hc.1.1, he.1⟩, hc.1.2⟩, hc.2⟩, he.2⟩

theorem endsName_rest : endsName p.rest = true := by
  refine endsName_iff.mpr fun c hc => ?_
  unfold endsNameChar
  cases hb : isBlank c with
  | true => rfl
  | false =>
    have ht : (Text.trimStart p.rest).head? = some c := by
      unfold Text.trimStart Text.trimStartBy
      cases hr : p.rest with
      | nil =>
        rw [hr] at hc
        cases hc
      | cons d cs =>
        rw [hr] at hc
        cases hc
        rw [List.dropWhile_cons_of_neg (ne_true_of_eq_false hb)]
        rfl
    rcases p.rest_start c ht with rfl | rfl
    · rfl
    · rfl

/-- Behind the first name of a path there is the end of a name. -/
theorem endsName_tail_rest : endsName (p.tail ++ p.rest) = true := by
  cases ht : p.tail with
  | nil => exact p.endsName_rest
  | cons c cs =>
    have hc := List.head?_dropWhile_not (fun c => !endsRoot c) p.path
    have hd : p.path.dropWhile (fun c => !endsRoot c) = c :: cs := ht
    rw [hd] at hc
    have he : endsRoot c = true := by
      have hc : (!endsRoot c) = false := hc
      rw [Bool.not_eq_false'] at hc
      exact hc
    show endsNameChar c = true
    unfold endsRoot at he
    unfold endsNameChar
    rcases Bool.or_eq_true_iff.mp he with h | h
    · rw [eq_of_beq h]
      rfl
    · rw [eq_of_beq h]
      rfl

/-- **A variable is found in a content just when the path starts with it.** -/
theorem renameLeading?_text {name : String} (hn : IsVariable name) (suffix : Nat) :
    renameLeading? name suffix p.text =
      if name = p.rootName then
        some ((elementName name suffix).toList ++ (p.tail ++ p.rest))
      else none := by
  have hne : name.isEmpty = false := by
    cases he : name.isEmpty with
    | false => rfl
    | true =>
      rw [String.isEmpty_iff] at he
      exact absurd (by rw [he]; rfl) hn.1
  have hname : ∀ c ∈ name.toList, endsNameChar c = false := fun c hc =>
    not_endsNameChar (hn.2 c hc)
  have hroot : ∀ c ∈ p.root, endsNameChar c = false := fun c => p.not_endsNameChar_of_root
  have htext : p.path ++ p.rest = p.root ++ (p.tail ++ p.rest) := by
    rw [← List.append_assoc, p.root_append_tail]
  have hiff : name = p.rootName ↔ name.toList = p.root := by
    unfold rootName
    constructor
    · rintro rfl
      exact String.toList_ofList
    · intro h
      rw [← h, String.ofList_toList]
  unfold renameLeading?
  rw [hne, if_neg Bool.false_ne_true, p.trimStart_text]
  by_cases heq : name = p.rootName
  · have hp : name.toList.isPrefixOf? (p.path ++ p.rest) = some (p.tail ++ p.rest) := by
      rw [List.isPrefixOf?_eq_some_iff_append_eq, hiff.mp heq]
      exact htext.symm
    rw [hp, if_pos heq]
    exact if_pos p.endsName_tail_rest
  · rw [if_neg heq]
    cases hp : name.toList.isPrefixOf? (p.path ++ p.rest) with
    | none => rfl
    | some r =>
      refine if_neg fun hr => heq (hiff.mpr ?_)
      have happ := eq_append_of_isPrefixOf? hp
      rw [htext] at happ
      exact (split_name hname hroot hr p.endsName_tail_rest happ.symm).1

end PathContent

/-! ## 4. The name of an element in front of a path -/

/-- Whether a character can stand in an identifier: a letter, a digit or the underscore. -/
def isWordChar (c : Char) : Bool :=
  (48 ≤ c.toNat && c.toNat ≤ 57) || (65 ≤ c.toNat && c.toNat ≤ 90) || c.toNat == 95 ||
    (97 ≤ c.toNat && c.toNat ≤ 122)

theorem isNameChar_of_isWordChar {c : Char} (h : isWordChar c = true) : isNameChar c = true := by
  have other (d : Char) (hd : isWordChar d = false) : (c == d) = false := by
    refine beq_false_of_ne ?_
    rintro rfl
    rw [h] at hd
    cases hd
  have hb : isBlank c = false := by
    unfold isWordChar at h
    simp only [Bool.or_eq_true, Bool.and_eq_true, decide_eq_true_eq, beq_iff_eq] at h
    unfold Text.isBlank
    simp only [Bool.or_eq_false_iff, Bool.and_eq_false_iff, decide_eq_false_iff_not,
      beq_eq_false_iff_ne]
    omega
  unfold isNameChar
  rw [hb, other '.' rfl, other ',' rfl, other ':' rfl, other '[' rfl, other '}' rfl,
    other escapeChar rfl]
  rfl

theorem isNameChar_digit {c : Char} {n : Nat} (h : c ∈ Nat.toDigits 10 n) :
    isNameChar c = true := by
  have hd : c.isDigit = true := Nat.isDigit_of_mem_toDigits (by decide) (by decide) h
  refine isNameChar_of_isWordChar ?_
  unfold Char.isDigit at hd
  rw [Bool.and_eq_true, decide_eq_true_eq, decide_eq_true_eq] at hd
  have hlow : 48 ≤ c.toNat := UInt32.le_iff_toNat_le.mp hd.1
  have hhigh : c.toNat ≤ 57 := UInt32.le_iff_toNat_le.mp hd.2
  unfold isWordChar
  rw [decide_eq_true hlow, decide_eq_true hhigh]
  rfl

/-- What holds of a name and of everything that a variable can be named with holds of the name of
    the element. -/
theorem forall_mem_elementName {p : Char → Prop} {name : String} (hname : ∀ c ∈ name.toList, p c)
    (h : ∀ c, isNameChar c = true → p c) (suffix : Nat) :
    ∀ c ∈ (elementName name suffix).toList, p c := by
  intro c hc
  rw [elementName_toList] at hc
  rcases List.mem_append.mp hc with hc | hc
  · have hp : elementPrefix.toList.all isNameChar = true := by decide +kernel
    exact h c (List.all_eq_true.mp hp c hc)
  · rcases List.mem_append.mp hc with hc | hc
    · exact hname c hc
    · rcases List.mem_cons.mp hc with rfl | hc
      · exact h '_' rfl
      · exact h c (isNameChar_digit hc)

/-- The name of an element is one that a variable could have. -/
theorem isNameChar_elementName {name : String} (hn : IsVariable name) (suffix : Nat) :
    ∀ c ∈ (elementName name suffix).toList, isNameChar c = true :=
  forall_mem_elementName hn.2 (fun _ h => h) suffix

theorem isPathChar_of_isNameChar {c : Char} (h : isNameChar c = true) : isPathChar c = true := by
  unfold isNameChar at h
  unfold isPathChar
  simp only [Bool.not_eq_true', Bool.or_eq_false_iff] at h ⊢
  exact ⟨⟨h.1.1.1.1.1.1, h.1.1.1.1.2⟩, h.1.1.1.2⟩

theorem not_endsRoot_of_isNameChar {c : Char} (h : isNameChar c = true) : endsRoot c = false := by
  unfold isNameChar at h
  unfold endsRoot
  simp only [Bool.not_eq_true', Bool.or_eq_false_iff] at h ⊢
  exact ⟨h.1.1.1.1.1.2, h.1.1.2⟩

theorem head?_elementName (name : String) (suffix : Nat) (cs : List Char) :
    ((elementName name suffix).toList ++ cs).head? = some '_' := by
  rw [elementName_toList]
  rfl

namespace PathContent

variable (p : PathContent)

theorem mem_path_of_tail {c : Char} (h : c ∈ p.tail) : c ∈ p.path := by
  rw [← p.root_append_tail]
  exact List.mem_append_right _ h

theorem endsRoot_tail (c : Char) (h : p.tail.head? = some c) : endsRoot c = true := by
  have hc := List.head?_dropWhile_not (fun c => !endsRoot c) p.path
  have hd : (p.path.dropWhile fun c => !endsRoot c).head? = some c := h
  rw [hd] at hc
  have hc : (!endsRoot c) = false := hc
  rw [Bool.not_eq_false'] at hc
  exact hc

/-- The content with the name of an element in place of the first name of its path. -/
def renamed {name : String} (hn : IsVariable name) (suffix : Nat) : PathContent where
  lead := []
  path := (elementName name suffix).toList ++ p.tail
  rest := p.rest
  lead_blank := fun _ hc => absurd hc List.not_mem_nil
  path_chars := by
    intro c hc
    rcases List.mem_append.mp hc with hc | hc
    · exact isPathChar_of_isNameChar (isNameChar_elementName hn suffix c hc)
    · exact p.path_chars c (p.mem_path_of_tail hc)
  path_ne := by
    intro h
    have hh := head?_elementName name suffix p.tail
    rw [h] at hh
    cases hh
  path_start := by
    intro c hc
    rw [head?_elementName] at hc
    cases hc
    decide
  rest_start := p.rest_start

theorem root_renamed {name : String} (hn : IsVariable name) (suffix : Nat) :
    (p.renamed hn suffix).root = (elementName name suffix).toList := by
  refine takeWhile_stop (fun c hc => ?_) fun c hc => ?_
  · rw [not_endsRoot_of_isNameChar (isNameChar_elementName hn suffix c hc)]
    rfl
  · rw [p.endsRoot_tail c hc]
    rfl

theorem tail_renamed {name : String} (hn : IsVariable name) (suffix : Nat) :
    (p.renamed hn suffix).tail = p.tail := by
  refine dropWhile_stop (fun c hc => ?_) fun c hc => ?_
  · rw [not_endsRoot_of_isNameChar (isNameChar_elementName hn suffix c hc)]
    rfl
  · rw [p.endsRoot_tail c hc]
    rfl

theorem rootName_renamed {name : String} (hn : IsVariable name) (suffix : Nat) :
    (p.renamed hn suffix).rootName = elementName name suffix := by
  unfold rootName
  rw [root_renamed, String.ofList_toList]

theorem text_renamed {name : String} (hn : IsVariable name) (suffix : Nat) :
    (p.renamed hn suffix).text = (elementName name suffix).toList ++ (p.tail ++ p.rest) := by
  show [] ++ ((elementName name suffix).toList ++ p.tail) ++ p.rest = _
  rw [List.nil_append, List.append_assoc]

theorem bind_renameLeading?_text {name : Option String} (suffix : Nat)
    (hv : ∀ n, name = some n → IsVariable n) (hn : name ≠ some p.rootName) :
    (name.bind fun n => renameLeading? n suffix p.text) = none := by
  cases name with
  | none => rfl
  | some n =>
    rw [Option.bind_some, p.renameLeading?_text (hv n rfl), if_neg fun e => hn (by rw [e])]

/-- A variable that the path does not start with leaves the content alone. -/
theorem rename_other {item index : Option String} (suffix : Nat)
    (hi : ∀ n, item = some n → IsVariable n) (hx : ∀ n, index = some n → IsVariable n)
    (hni : item ≠ some p.rootName) (hnx : index ≠ some p.rootName) :
    Layer.rename item index suffix p.text = p.text := by
  unfold Layer.rename
  rw [p.bind_renameLeading?_text suffix hi hni, p.bind_renameLeading?_text suffix hx hnx]

/-- **A variable that the path starts with gives way to the name of the element**, and nothing else
    of the content changes but the blanks in front of it. -/
theorem rename_text {item index : Option String} (suffix : Nat)
    (hi : ∀ n, item = some n → IsVariable n) (hn : IsVariable p.rootName)
    (h : item = some p.rootName ∨ index = some p.rootName) :
    Layer.rename item index suffix p.text = (p.renamed hn suffix).text := by
  have hit : renameLeading? p.rootName suffix p.text =
      some ((elementName p.rootName suffix).toList ++ (p.tail ++ p.rest)) := by
    rw [p.renameLeading?_text hn, if_pos rfl]
  rw [text_renamed]
  unfold Layer.rename
  by_cases hitem : item = some p.rootName
  · rw [hitem, Option.bind_some, hit]
  · have hindex : index = some p.rootName := h.resolve_left hitem
    rw [p.bind_renameLeading?_text suffix hi hitem, hindex, Option.bind_some, hit]

end PathContent

end SqlTemplate
