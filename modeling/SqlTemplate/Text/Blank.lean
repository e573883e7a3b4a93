/-!
# Blank characters and trimming

* `isBlank`: the White_Space property of Unicode, twenty-five code points;
* `trimStart`, `trimEnd`, `trim`: what is left of a character list once its blank ends are cut;
* `apply_trim`: what passes single blanks at both ends by does not see trimming;
* `isBlankText`, `trimText`: the same two questions asked of a `String`.
-/

namespace SqlTemplate.Text

/-! ## 1. The property -/

/-- The characters with the White_Space property. -/
def isBlank (c : Char) : Bool :=
  let n := c.toNat
  (0x09 ≤ n && n ≤ 0x0D) || n == 0x20 || n == 0x85 || n == 0xA0 || n == 0x1680 ||
    (0x2000 ≤ n && n ≤ 0x200A) || n == 0x2028 || n == 0x2029 || n == 0x202F || n == 0x205F ||
    n == 0x3000

/-! ## 2. Trimming -/

/-- Cuts the leading characters that satisfy `p`. -/
def trimStartBy (p : Char → Bool) (cs : List Char) : List Char := cs.dropWhile p

/-- Cuts the trailing characters that satisfy `p`. -/
def trimEndBy (p : Char → Bool) (cs : List Char) : List Char := (cs.reverse.dropWhile p).reverse

/-- Cuts the characters that satisfy `p` at both ends. -/
def trimBy (p : Char → Bool) (cs : List Char) : List Char := trimEndBy p (trimStartBy p cs)

/-- Cuts the leading blanks. -/
def trimStart (cs : List Char) : List Char := trimStartBy isBlank cs

/-- Cuts the trailing blanks. -/
def trimEnd (cs : List Char) : List Char := trimEndBy isBlank cs

/-- Cuts the blanks at both ends. -/
def trim (cs : List Char) : List Char := trimBy isBlank cs

/-- **What does not depend on a blank at either end does not depend on trimming.** -/
theorem apply_trim {α : Type} {f : List Char → α}
    (start : ∀ c cs, isBlank c = true → f (c :: cs) = f cs)
    (stop : ∀ c cs, isBlank c = true → f (cs ++ [c]) = f cs) (cs : List Char) :
    f (trim cs) = f cs := by
  have atStart (cs : List Char) : f (cs.dropWhile isBlank) = f cs := by
    induction cs with
    | nil => rfl
    | cons c cs ih =>
      cases hb : isBlank c with
      | true => rw [List.dropWhile_cons_of_pos hb, ih, start c cs hb]
      | false => rw [List.dropWhile_cons_of_neg (ne_true_of_eq_false hb)]
  have atStop (rs : List Char) : f (rs.dropWhile isBlank).reverse = f rs.reverse := by
    induction rs with
    | nil => rfl
    | cons c rs ih =>
      cases hb : isBlank c with
      | true => rw [List.dropWhile_cons_of_pos hb, ih, List.reverse_cons, stop c _ hb]
      | false => rw [List.dropWhile_cons_of_neg (ne_true_of_eq_false hb)]
  calc f (trim cs) = f (trimStart cs).reverse.reverse := atStop (trimStart cs).reverse
    _ = f (trimStart cs) := by rw [List.reverse_reverse]
    _ = f cs := atStart cs

/-! ## 3. The same of strings -/

/-- A text is blank when it holds nothing but blanks. -/
def isBlankText (s : String) : Bool := s.toList.all isBlank

/-- A text without its blank ends. -/
def trimText (s : String) : String := String.ofList (trim s.toList)

end SqlTemplate.Text
