import Mathlib.Data.List.Infix
import SqlTemplate.Sql

/-!
# LIKE patterns

The operator LIKE compares a text with a pattern. A percent sign stands for any text, an underscore
for any one character, and a backslash takes the meaning from the character behind it.

* `Like`: the texts that a pattern matches;
* `matchesLike`: the same as a function, which tries every text that a percent sign can stand for;
* `like_escaped_append`: an escaped text at the front of a pattern matches itself and nothing else;
* `like_escapeLike`: what an escaped text matches, alone and between two percent signs.
-/

namespace SqlTemplate.Sql

/-! ## 1. Matching -/

/-- Whether a pattern matches a text. -/
inductive Like : List Char → List Char → Prop where
  | nil : Like [] []
  | anyText {pattern text : List Char} (skipped : List Char) (h : Like pattern text) :
      Like ('%' :: pattern) (skipped ++ text)
  | anyChar {pattern text : List Char} (c : Char) (h : Like pattern text) :
      Like ('_' :: pattern) (c :: text)
  | escaped {pattern text : List Char} (c : Char) (h : Like pattern text) :
      Like ('\\' :: c :: pattern) (c :: text)
  | plain {pattern text : List Char} {c : Char} (hc : isWildcard c = false)
      (h : Like pattern text) : Like (c :: pattern) (c :: text)

section Patterns

variable {pattern text : List Char}

theorem isWildcard_iff {c : Char} : isWildcard c = true ↔ c = '%' ∨ c = '_' ∨ c = '\\' := by
  simp only [isWildcard, Bool.or_eq_true, beq_iff_eq, or_assoc]

theorem like_nil : Like [] text ↔ text = [] := by
  constructor
  · intro h
    cases h
    rfl
  · rintro rfl
    exact .nil

/-- A percent sign stands for any text. -/
theorem like_anyText : Like ('%' :: pattern) text ↔ ∃ rest, rest <:+ text ∧ Like pattern rest := by
  constructor
  · intro h
    cases h with
    | anyText skipped h => exact ⟨_, List.suffix_append _ _, h⟩
    | plain hc _ => cases hc
  · rintro ⟨rest, ⟨skipped, rfl⟩, h⟩
    exact .anyText skipped h

/-- An underscore stands for any one character. -/
theorem like_anyChar : Like ('_' :: pattern) text ↔ ∃ c rest, text = c :: rest ∧ Like pattern rest := by
  constructor
  · intro h
    cases h with
    | anyChar c h => exact ⟨c, _, rfl, h⟩
    | plain hc _ => cases hc
  · rintro ⟨c, rest, rfl, h⟩
    exact .anyChar c h

/-- A character behind a backslash stands for itself. -/
theorem like_escaped {c : Char} :
    Like ('\\' :: c :: pattern) text ↔ ∃ rest, text = c :: rest ∧ Like pattern rest := by
  constructor
  · intro h
    cases h with
    | escaped _ h => exact ⟨_, rfl, h⟩
    | plain hc _ => cases hc
  · rintro ⟨rest, rfl, h⟩
    exact .escaped c h

/-- A character that means nothing else stands for itself. -/
theorem like_plain {c : Char} (hc : isWildcard c = false) :
    Like (c :: pattern) text ↔ ∃ rest, text = c :: rest ∧ Like pattern rest := by
  constructor
  · intro h
    cases h with
    | anyText _ _ => cases hc
    | anyChar _ _ => cases hc
    | escaped _ _ => cases hc
    | plain _ h => exact ⟨_, rfl, h⟩
  · rintro ⟨rest, rfl, h⟩
    exact .plain hc h

/-- Nothing matches a pattern that ends in a lone backslash. -/
theorem not_like_backslash : ¬Like ['\\'] text := by
  intro h
  cases h with
  | plain hc _ => cases hc

end Patterns

/-- `Like`, computed. -/
def matchesLike : List Char → List Char → Bool
  | [], text => text.isEmpty
  | c :: pattern, text =>
    if c = '%' then text.tails.any (matchesLike pattern)
    else
      match text with
      | [] => false
      | x :: text =>
        if c = '_' then matchesLike pattern text
        else if c = '\\' then
          match pattern with
          | [] => false
          | d :: pattern => d == x && matchesLike pattern text
        else c == x && matchesLike pattern text

/-- A text that starts with a given character is that character in front of its tail. -/
theorem exists_eq_cons {c x : Char} {text : List Char} {p : List Char → Prop} :
    (∃ rest, x :: text = c :: rest ∧ p rest) ↔ c = x ∧ p text := by
  constructor
  · rintro ⟨rest, h, hp⟩
    cases h
    exact ⟨rfl, hp⟩
  · rintro ⟨rfl, hp⟩
    exact ⟨text, rfl, hp⟩

theorem matchesLike_iff : ∀ pattern text : List Char,
    matchesLike pattern text = true ↔ Like pattern text
  | [], text => by rw [matchesLike, List.isEmpty_iff, like_nil]
  | c :: pattern, text => by
    unfold matchesLike
    by_cases hany : c = '%'
    · subst hany
      simp only [↓reduceIte, List.any_eq_true, List.mem_tails, like_anyText,
        matchesLike_iff pattern]
    rw [if_neg hany]
    cases text with
    | nil =>
      refine ⟨fun h => (nomatch h), fun h => ?_⟩
      generalize hp : c :: pattern = whole at h
      generalize ht : ([] : List Char) = text at h
      cases h with
      | nil => cases hp
      | anyText _ _ => exact absurd (List.cons.inj hp).1 hany
      | anyChar _ _ => cases ht
      | escaped _ _ => cases ht
      | plain _ _ => cases ht
    | cons x text =>
      by_cases hone : c = '_'
      · subst hone
        have hx : (∃ d rest, x :: text = d :: rest ∧ Like pattern rest) ↔ Like pattern text := by
          simp only [exists_eq_cons, exists_eq_left]
        rw [like_anyChar, hx]
        exact matchesLike_iff pattern text
      by_cases hesc : c = '\\'
      · subst hesc
        cases pattern with
        | nil => exact ⟨fun h => (nomatch h), fun h => absurd h not_like_backslash⟩
        | cons d pattern =>
          rw [like_escaped, exists_eq_cons, ← matchesLike_iff pattern text]
          simp only [hone, ↓reduceIte, Bool.and_eq_true, beq_iff_eq]
      have hc : isWildcard c = false := by
        rw [Bool.eq_false_iff, Ne, isWildcard_iff]
        simp only [hany, hone, hesc, or_self, not_false_eq_true]
      rw [like_plain hc, exists_eq_cons, ← matchesLike_iff pattern text]
      simp only [hone, hesc, ↓reduceIte, Bool.and_eq_true, beq_iff_eq]

instance (pattern text : List Char) : Decidable (Like pattern text) :=
  decidable_of_iff _ (matchesLike_iff pattern text)

/-! ## 2. Escaped text -/

/-- One character of an escaped text matches that character. -/
theorem like_escapeLikeChar {c : Char} {pattern text : List Char} :
    Like (escapeLikeChar c ++ pattern) text ↔ ∃ rest, text = c :: rest ∧ Like pattern rest := by
  unfold escapeLikeChar
  by_cases hc : isWildcard c = true
  · rw [if_pos hc]
    exact like_escaped
  · rw [if_neg hc]
    exact like_plain (Bool.eq_false_iff.mpr hc)

/-- **An escaped text matches itself, whatever pattern follows it.** -/
theorem like_escaped_append (value : List Char) {pattern text : List Char} :
    Like (value.flatMap escapeLikeChar ++ pattern) text ↔
      ∃ rest, text = value ++ rest ∧ Like pattern rest := by
  induction value generalizing text with
  | nil => simp only [List.flatMap_nil, List.nil_append, exists_eq_left']
  | cons c value ih =>
    rw [List.flatMap_cons, List.append_assoc, like_escapeLikeChar]
    constructor
    · rintro ⟨tail, rfl, h⟩
      obtain ⟨rest, rfl, hrest⟩ := ih.mp h
      exact ⟨rest, rfl, hrest⟩
    · rintro ⟨rest, rfl, hrest⟩
      exact ⟨value ++ rest, rfl, ih.mpr ⟨rest, rfl, hrest⟩⟩

/-- A percent sign at the end of a pattern matches whatever is left. -/
theorem like_rest (text : List Char) : Like ['%'] text :=
  like_anyText.mpr ⟨[], List.nil_suffix, .nil⟩

/-- **An escaped text matches exactly itself, and exactly the texts that contain it when it stands
    between two percent signs.** -/
theorem like_escapeLike (value text : String) :
    (Like (escapeLike value).toList text.toList ↔ text = value) ∧
      (Like ("%" ++ escapeLike value ++ "%").toList text.toList ↔
        value.toList <:+: text.toList) := by
  have hvalue : (escapeLike value).toList = value.toList.flatMap escapeLikeChar :=
    String.toList_ofList
  constructor
  · have happ := @like_escaped_append value.toList [] text.toList
    rw [List.append_nil, ← hvalue] at happ
    rw [happ]
    simp only [like_nil, exists_eq_right, List.append_nil, String.toList_inj]
  · have hpattern : ("%" ++ escapeLike value ++ "%").toList =
        '%' :: (value.toList.flatMap escapeLikeChar ++ ['%']) := by
      rw [String.toList_append, String.toList_append, hvalue]
      rfl
    rw [hpattern, like_anyText]
    constructor
    · rintro ⟨rest, hrest, h⟩
      obtain ⟨tail, rfl, -⟩ := (like_escaped_append value.toList).mp h
      exact List.IsInfix.trans (List.prefix_append _ _).isInfix hrest.isInfix
    · rintro ⟨before, after, h⟩
      refine ⟨value.toList ++ after, ⟨before, ?_⟩, ?_⟩
      · rw [← h, List.append_assoc]
      · exact (like_escaped_append value.toList).mpr ⟨after, rfl, like_rest after⟩

end SqlTemplate.Sql
