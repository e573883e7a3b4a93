import SqlTemplate.Proofs.PathReading

/-!
# Written paths

A path as a text. The blanks around it say nothing, brackets that are closed part it into texts that
are read on their own, and the steps that a path can say have one written form.

* `Path.parse_eq`: the ends of a path need not be trimmed;
* `Path.Closed`: every bracket that a text opens is closed in it;
* `Path.stepsFrom_append`: the steps of a closed text and of what follows it;
* `Path.print`: the written form of steps;
* `Path.Step.IsPrintable`: the steps that a path can say;
* `Path.parse_print_iff`: parsing takes back just the printed steps that a path can say.
-/

namespace SqlTemplate

open Text (isBlank)

/-! ## 1. Blank ends -/

/-- A blank at the end of a text is trimmed with the others. -/
theorem Text.trim_concat {c : Char} (h : isBlank c = true) (cs : List Char) :
    trim (cs ++ [c]) = trim cs := by
  unfold trim trimBy trimStartBy
  rw [List.dropWhile_append]
  by_cases he : (cs.dropWhile isBlank).isEmpty = true
  · rw [if_pos he, List.dropWhile_cons_of_pos h, List.isEmpty_iff.mp he]
    rfl
  · rw [if_neg he]
    unfold trimEndBy
    rw [List.reverse_append, List.reverse_singleton, List.singleton_append,
      List.dropWhile_cons_of_pos h]

theorem ne_of_isBlank {c d : Char} (hc : isBlank c = true) (hd : isBlank d = false) : c ≠ d := by
  rintro rfl
  rw [hc] at hd
  cases hd

namespace Path

theorem bracketStep_concat {c : Char} (h : isBlank c = true) (inner : List Char) :
    bracketStep (inner ++ [c]) = bracketStep inner := by
  unfold bracketStep
  rw [Text.trim_concat h]

/-- Outside of brackets a blank counts for nothing. -/
theorem stepsFrom_blank {c : Char} (h : isBlank c = true) (read cs : List Char) :
    stepsFrom (.name read) (c :: cs) = stepsFrom (.name read) cs := by
  rw [stepsFrom, if_neg (ne_of_isBlank h rfl), if_neg (ne_of_isBlank h rfl), if_pos h]

/-- At the end of a path a blank counts for nothing, also inside of brackets that stay open. -/
theorem stepsFrom_concat {c : Char} (h : isBlank c = true) (part : Part) (cs : List Char) :
    stepsFrom part (cs ++ [c]) = stepsFrom part cs := by
  induction cs generalizing part with
  | nil =>
    cases part with
    | name read => exact stepsFrom_blank h read []
    | bracket read =>
      show stepsFrom (.bracket read) [c] = [bracketStep read]
      rw [stepsFrom, if_neg (ne_of_isBlank h rfl), stepsFrom, bracketStep_concat h]
  | cons d cs ih =>
    cases part with
    | name read => simp only [List.cons_append, stepsFrom, ih]
    | bracket read => simp only [List.cons_append, stepsFrom, ih]

/-- **The blank ends of a path say nothing.** -/
theorem parse_eq (path : String) : parse path = stepsFrom (.name []) path.toList :=
  Text.apply_trim (fun _ cs h => stepsFrom_blank h [] cs) (fun _ cs h => stepsFrom_concat h _ cs)
    path.toList

/-! ## 2. Closed brackets -/

/-- The texts that close every bracket that they open. Inside of brackets none opens. -/
inductive Closed : List Char → Prop
  | nil : Closed []
  | outside {c : Char} {cs : List Char} : c ≠ '[' → Closed cs → Closed (c :: cs)
  | brackets {inner cs : List Char} : ']' ∉ inner → Closed cs → Closed ('[' :: (inner ++ ']' :: cs))

theorem closed_of_not_mem {cs : List Char} (h : '[' ∉ cs) : Closed cs := by
  induction cs with
  | nil => exact .nil
  | cons c cs ih =>
    rw [List.mem_cons, not_or] at h
    exact .outside (Ne.symm h.1) (ih h.2)

/-- Brackets are read up to the first one that closes them. -/
theorem stepsFrom_inner {inner : List Char} (h : ']' ∉ inner) (read cs : List Char) :
    stepsFrom (.bracket read) (inner ++ ']' :: cs) =
      bracketStep (read ++ inner) :: stepsFrom (.name []) cs := by
  induction inner generalizing read with
  | nil => rw [List.nil_append, stepsFrom, if_pos rfl, List.append_nil]
  | cons c inner ih =>
    rw [List.mem_cons, not_or] at h
    rw [List.cons_append, stepsFrom, if_neg (Ne.symm h.1), ih h.2, List.append_assoc,
      List.singleton_append]

/-- **A closed text is read on its own**, up to a dot or a bracket behind it. -/
theorem stepsFrom_append {cs : List Char} (h : Closed cs) {rest : List Char}
    (hr : ∀ c, rest.head? = some c → endsRoot c = true) (read : List Char) :
    stepsFrom (.name read) (cs ++ rest) =
      stepsFrom (.name read) cs ++ stepsFrom (.name []) rest := by
  induction h generalizing read with
  | nil => exact stepsFrom_end read hr
  | @outside c cs hc _ ih =>
    rw [List.cons_append, stepsFrom, stepsFrom]
    by_cases hdot : c = '.'
    · rw [if_pos hdot, if_pos hdot, ih, List.append_assoc]
    · rw [if_neg hdot, if_neg hdot, if_neg hc, if_neg hc]
      by_cases hb : isBlank c = true
      · rw [if_pos hb, if_pos hb, ih]
      · rw [if_neg hb, if_neg hb, ih]
  | @brackets inner cs hi _ ih =>
    have hcs : '[' :: (inner ++ ']' :: cs) ++ rest = '[' :: (inner ++ ']' :: (cs ++ rest)) := by
      rw [List.cons_append, List.append_assoc, List.cons_append]
    have hopen (cs : List Char) : stepsFrom (.name read) ('[' :: (inner ++ ']' :: cs)) =
        nameStep read ++ bracketStep inner :: stepsFrom (.name []) cs := by
      rw [stepsFrom, if_neg (by decide), if_pos rfl, stepsFrom_inner hi, List.nil_append]
    rw [hcs, hopen, hopen, ih, List.append_assoc, List.cons_append]

/-! ## 3. Printing -/

/-- The written form of a step, with what parts it from the steps in front of it. -/
def Step.text : Step → List Char
  | .name s => '.' :: s.toList
  | .index n => '[' :: ((toString n).toList ++ [']'])
  | .key s => '[' :: ('\'' :: (s.toList ++ ['\'']) ++ [']'])

/-- The written form of steps. Nothing stands in front of a name at the start. -/
def print : List Step → String
  | .name s :: rest => String.ofList (s.toList ++ rest.flatMap Step.text)
  | steps => String.ofList (steps.flatMap Step.text)

/-- A dot at the start of a path says nothing. -/
theorem parse_print_eq (steps : List Step) :
    parse (print steps) = stepsFrom (.name []) (steps.flatMap Step.text) := by
  rw [parse_eq]
  cases steps with
  | nil => rfl
  | cons step rest =>
    cases step with
    | name s =>
      rw [print, String.toList_ofList]
      rfl
    | index n => exact congrArg (stepsFrom (.name [])) String.toList_ofList
    | key s => exact congrArg (stepsFrom (.name [])) String.toList_ofList

/-- Whether a path can say a step: a name that is not cut or lost in part, an index of 64 bits, a
    key that does not end too early and loses no quotation marks. -/
def Step.IsPrintable : Step → Prop
  | .name s => s.toList ≠ [] ∧ ∀ c ∈ s.toList, c ≠ '.' ∧ c ≠ '[' ∧ isBlank c = false
  | .index n => n < indexBound
  | .key s => ']' ∉ s.toList ∧ (∀ c ∈ s.toList.head?, isQuote c = false) ∧
      ∀ c ∈ s.toList.getLast?, isQuote c = false

instance : (step : Step) → Decidable step.IsPrintable
  | .name s => @instDecidableAnd _ _ _ (List.decidableBAll _ s.toList)
  | .index n => Nat.decLt n indexBound
  | .key s => @instDecidableAnd _ _ _
      (@instDecidableAnd _ _ (Option.decidableForallMem s.toList.head?)
        (Option.decidableForallMem s.toList.getLast?))

/-! ## 4. Every printed step is read back -/

/-- Digits are read as the number that they stand for. -/
theorem digitsValueFrom?_of_isDigit {cs : List Char} (h : ∀ c ∈ cs, c.isDigit = true)
    (value : Nat) : Text.digitsValueFrom? value cs = some (Nat.ofDigitChars 10 cs value) := by
  induction cs generalizing value with
  | nil => rfl
  | cons c cs ih =>
    rw [Text.digitsValueFrom?, if_pos (h c List.mem_cons_self), Nat.ofDigitChars_cons]
    exact ih (fun d hd => h d (List.mem_cons_of_mem c hd)) _

theorem toList_toString (n : Nat) : (toString n).toList = Nat.toDigits 10 n := Nat.toList_repr

theorem isDigit_of_mem_toString {c : Char} {n : Nat} (h : c ∈ (toString n).toList) :
    c.isDigit = true := by
  rw [toList_toString] at h
  exact Nat.isDigit_of_mem_toDigits (by decide) (by decide) h

/-- A printed number is read back if it lies below the bound. -/
theorem readBounded?_toString {n bound : Nat} (h : n < bound) :
    Text.readBounded? bound (toString n).toList = some n := by
  have hvalue : Text.digitsValueFrom? 0 (toString n).toList = some n := by
    rw [digitsValueFrom?_of_isDigit fun _ => isDigit_of_mem_toString,
      toList_toString, Nat.ofDigitChars_ten_toDigits]
  cases hs : (toString n).toList with
  | nil => exact absurd ((toList_toString n).symm.trans hs) Nat.toDigits_ne_nil
  | cons c cs =>
    have hc : c ≠ '+' := by
      rintro rfl
      have hd : '+'.isDigit = true :=
        isDigit_of_mem_toString (n := n) (by rw [hs]; exact List.mem_cons_self)
      cases hd
    have hplus : Text.dropPlus (c :: cs) = c :: cs := by
      unfold Text.dropPlus
      split
      · rename_i heq
        exact absurd (List.cons.inj heq).1 hc
      · rfl
    rw [hs] at hvalue
    unfold Text.readBounded? Text.digitsValue?
    rw [hplus, List.isEmpty_cons, if_neg Bool.false_ne_true, hvalue,
      Option.filter_some, if_pos (decide_eq_true h)]

/-- What can stand in a variable can stand in a name of a path. -/
theorem parts_of_isNameChar {c : Char} (h : isNameChar c = true) :
    c ≠ '.' ∧ c ≠ '[' ∧ isBlank c = false := by
  unfold isNameChar at h
  simp only [Bool.not_eq_true', Bool.or_eq_false_iff, beq_eq_false_iff_ne] at h
  exact ⟨h.1.1.1.1.1.2, h.1.1.2, h.1.1.1.1.1.1⟩

theorem isBlank_of_mem_toString {c : Char} {n : Nat} (h : c ∈ (toString n).toList) :
    isBlank c = false := by
  rw [toList_toString] at h
  exact (parts_of_isNameChar (isNameChar_digit h)).2.2

theorem bracketStep_index {n : Nat} (h : n < indexBound) :
    bracketStep (toString n).toList = .index n := by
  have htrim : Text.trim (toString n).toList = (toString n).toList :=
    trim_of_not_blank fun _ => isBlank_of_mem_toString
  unfold bracketStep
  simp only [htrim, readBounded?_toString h]

/-- Quotation marks make a key of everything that stands between them. -/
theorem bracketStep_key {s : String} (h : (Step.key s).IsPrintable) :
    bracketStep ('\'' :: (s.toList ++ ['\''])) = .key s := by
  obtain ⟨-, hstart, hstop⟩ := h
  have hlast : ('\'' :: (s.toList ++ ['\''])).getLast? = some '\'' := by
    rw [← List.cons_append, List.getLast?_append]
    rfl
  have htrim : Text.trim ('\'' :: (s.toList ++ ['\''])) = '\'' :: (s.toList ++ ['\'']) := by
    have hnil : ∀ c ∈ ([] : List Char), isBlank c = true := fun _ hc => absurd hc List.not_mem_nil
    have ht : Text.trimBy isBlank ([] ++ '\'' :: (s.toList ++ ['\'']) ++ []) =
        '\'' :: (s.toList ++ ['\'']) := by
      refine trimBy_between hnil (fun c hc => ?_) (fun c hc => ?_) hnil
      · cases hc
        rfl
      · rw [hlast] at hc
        cases hc
        rfl
    rw [List.nil_append, List.append_nil] at ht
    exact ht
  have hkey : Text.trimBy isQuote ('\'' :: (s.toList ++ ['\''])) = s.toList := by
    have hmark : ∀ c ∈ ['\''], isQuote c = true := List.forall_mem_singleton.mpr rfl
    exact trimBy_between hmark hstart hstop hmark
  have hnumber : Text.readBounded? indexBound ('\'' :: (s.toList ++ ['\''])) = none := rfl
  unfold bracketStep
  simp only [htrim, hnumber, hkey, String.ofList_toList]

theorem endsRoot_text (step : Step) : ∀ c ∈ step.text.head?, endsRoot c = true := by
  intro c hc
  cases step <;> cases hc <;> rfl

/-- A printed step is closed, and it is read as the step. -/
theorem stepsFrom_text {step : Step} (h : step.IsPrintable) :
    Closed step.text ∧ stepsFrom (.name []) step.text = [step] := by
  have inBrackets {inner : List Char} (hi : ']' ∉ inner) (hs : bracketStep inner = step) :
      Closed ('[' :: (inner ++ [']'])) ∧
        stepsFrom (.name []) ('[' :: (inner ++ [']'])) = [step] := by
    refine ⟨.brackets hi .nil, ?_⟩
    rw [← hs]
    exact stepsFrom_inner hi [] []
  cases step with
  | name s =>
    obtain ⟨hne, hc⟩ := h
    refine ⟨.outside (by decide) (closed_of_not_mem fun hm => (hc _ hm).2.1 rfl), ?_⟩
    have hs := stepsFrom_name hc [] []
    rw [List.append_nil, List.nil_append] at hs
    show stepsFrom (.name []) s.toList = _
    rw [hs, stepsFrom, nameStep, List.isEmpty_eq_false_iff.mpr hne, if_neg Bool.false_ne_true,
      String.ofList_toList]
  | index n =>
    have hi : ']' ∉ (toString n).toList := fun hm => by cases isDigit_of_mem_toString hm
    exact inBrackets hi (bracketStep_index h)
  | key s =>
    have hi : ']' ∉ '\'' :: (s.toList ++ ['\'']) := by
      rw [List.mem_cons, List.mem_append, not_or, not_or]
      exact ⟨by decide, h.1, by decide⟩
    exact inBrackets hi (bracketStep_key h)

/-- **Printed steps are read one after the other.** -/
theorem stepsFrom_texts {steps : List Step} (h : ∀ step ∈ steps, step.IsPrintable) :
    stepsFrom (.name []) (steps.flatMap Step.text) = steps := by
  induction steps with
  | nil => rfl
  | cons step rest ih =>
    obtain ⟨hclosed, hstep⟩ := stepsFrom_text (h step List.mem_cons_self)
    have hhead : ∀ c, (rest.flatMap Step.text).head? = some c → endsRoot c = true := by
      intro c hc
      cases rest with
      | nil => cases hc
      | cons next rest =>
        refine endsRoot_text next c ?_
        cases next <;> exact hc
    rw [List.flatMap_cons, stepsFrom_append hclosed hhead, hstep,
      ih fun s hs => h s (List.mem_cons_of_mem step hs)]
    rfl

/-! ## 5. Nothing else is read -/

/-- Trimming cuts nothing but what is to be cut, at both ends. -/
theorem exists_trimBy (p : Char → Bool) (cs : List Char) :
    ∃ front back, cs = front ++ Text.trimBy p cs ++ back ∧ (∀ c ∈ front, p c = true) ∧
      ∀ c ∈ back, p c = true := by
  have hback : cs.dropWhile p =
      Text.trimBy p cs ++ ((cs.dropWhile p).reverse.takeWhile p).reverse := by
    show _ = ((cs.dropWhile p).reverse.dropWhile p).reverse ++ _
    rw [← List.reverse_append, List.takeWhile_append_dropWhile, List.reverse_reverse]
  refine ⟨cs.takeWhile p, ((cs.dropWhile p).reverse.takeWhile p).reverse, ?_,
    fun _ => List.mem_takeWhile_imp, fun c hc => List.mem_takeWhile_imp (List.mem_reverse.mp hc)⟩
  rw [List.append_assoc, ← hback]
  exact List.takeWhile_append_dropWhile.symm

theorem mem_of_mem_trimBy {p : Char → Bool} {c : Char} {cs : List Char} (h : c ∈ Text.trimBy p cs) :
    c ∈ cs := by
  obtain ⟨front, back, hcut, -⟩ := exists_trimBy p cs
  rw [hcut]
  exact List.mem_append_left back (List.mem_append_right front h)

theorem getLast?_trimBy (p : Char → Bool) (cs : List Char) :
    ∀ c ∈ (Text.trimBy p cs).getLast?, p c = false := by
  intro c hc
  unfold Text.trimBy Text.trimEndBy at hc
  rw [List.getLast?_reverse] at hc
  have hn := List.head?_dropWhile_not p (Text.trimStartBy p cs).reverse
  rw [hc] at hn
  exact hn

/-- What is left by trimming starts with what stood there before the end was cut. -/
theorem head?_trimBy (p : Char → Bool) (cs : List Char) :
    ∀ c ∈ (Text.trimBy p cs).head?, p c = false := by
  intro c hc
  have hstart : (cs.dropWhile p).head? = some c := by
    have hpre : Text.trimBy p cs <+: cs.dropWhile p := by
      unfold Text.trimBy Text.trimEndBy
      rw [← List.reverse_suffix, List.reverse_reverse]
      exact List.dropWhile_suffix p
    obtain ⟨rest, hr⟩ := hpre
    obtain ⟨tail, ht⟩ := List.head?_eq_some_iff.mp hc
    rw [← hr, ht]
    rfl
  have hn := List.head?_dropWhile_not p cs
  rw [hstart] at hn
  exact hn

theorem isPrintable_bracketStep {inner : List Char} (h : ']' ∉ inner) :
    (bracketStep inner).IsPrintable := by
  unfold bracketStep
  simp only
  split
  · rename_i n hn
    unfold Text.readBounded? at hn
    have hlt : decide (n < indexBound) = true := (Option.filter_eq_some_iff.mp hn).2
    exact of_decide_eq_true hlt
  · unfold Step.IsPrintable
    simp only [String.toList_ofList]
    exact ⟨fun hm => h (mem_of_mem_trimBy (mem_of_mem_trimBy hm)), head?_trimBy isQuote _,
      getLast?_trimBy isQuote _⟩

/-- What can have been read of a part: a name ends at a dot, a bracket or a blank, and brackets end
    where they are closed. -/
def Part.IsSound : Part → Prop
  | .name cs => ∀ c ∈ cs, c ≠ '.' ∧ c ≠ '[' ∧ isBlank c = false
  | .bracket cs => ']' ∉ cs

theorem isPrintable_nameStep {cs : List Char} (h : (Part.name cs).IsSound) :
    ∀ step ∈ nameStep cs, step.IsPrintable := by
  intro step hs
  cases cs with
  | nil => cases hs
  | cons c cs =>
    obtain rfl := List.mem_singleton.mp hs
    unfold Step.IsPrintable
    simp only [String.toList_ofList]
    exact ⟨List.cons_ne_nil c cs, h⟩

/-- **A path says printable steps**, whatever is written in it. -/
theorem isPrintable_stepsFrom {part : Part} (h : part.IsSound) (cs : List Char) :
    ∀ step ∈ stepsFrom part cs, step.IsPrintable := by
  have hnil : (Part.name []).IsSound := fun _ hc => absurd hc List.not_mem_nil
  have hopen : (Part.bracket []).IsSound := List.not_mem_nil
  induction cs generalizing part with
  | nil =>
    cases part with
    | name read => exact isPrintable_nameStep h
    | bracket read => exact List.forall_mem_singleton.mpr (isPrintable_bracketStep h)
  | cons c cs ih =>
    cases part with
    | name read =>
      rw [stepsFrom]
      by_cases hdot : c = '.'
      · rw [if_pos hdot]
        exact List.forall_mem_append.mpr ⟨isPrintable_nameStep h, ih hnil⟩
      · rw [if_neg hdot]
        by_cases hbracket : c = '['
        · rw [if_pos hbracket]
          exact List.forall_mem_append.mpr ⟨isPrintable_nameStep h, ih hopen⟩
        · rw [if_neg hbracket]
          by_cases hb : isBlank c = true
          · rw [if_pos hb]
            exact ih h
          · rw [if_neg hb]
            refine ih (List.forall_mem_append.mpr ⟨h, List.forall_mem_singleton.mpr ?_⟩)
            exact ⟨hdot, hbracket, eq_false_of_ne_true hb⟩
    | bracket read =>
      rw [stepsFrom]
      by_cases hc : c = ']'
      · rw [if_pos hc]
        exact List.forall_mem_cons.mpr ⟨isPrintable_bracketStep h, ih hnil⟩
      · rw [if_neg hc]
        refine ih fun hm => ?_
        rcases List.mem_append.mp hm with hm | hm
        · exact h hm
        · exact hc (List.mem_singleton.mp hm).symm

theorem isPrintable_parse (path : String) : ∀ step ∈ parse path, step.IsPrintable := by
  have hnil : (Part.name []).IsSound := fun _ hc => absurd hc List.not_mem_nil
  exact isPrintable_stepsFrom hnil _

/-! ## 6. The round trip -/

theorem parse_print_of_isPrintable {steps : List Step} (h : ∀ step ∈ steps, step.IsPrintable) :
    parse (print steps) = steps := by
  rw [parse_print_eq, stepsFrom_texts h]

/-- **Every path has one written form of its steps.** -/
theorem parse_print_parse (path : String) : parse (print (parse path)) = parse path :=
  parse_print_of_isPrintable (isPrintable_parse path)

/-- **Parsing undoes printing just for the steps that a path can say**: a name that is neither empty
    nor cut, an index of 64 bits, and any key that does not close its brackets and has no quotation
    mark at an end. So two lists of such steps with one written form are the same: a key that looks
    like a number, that is empty or that holds blanks, dots or brackets is never taken for an index
    or for names. -/
theorem parse_print_iff (steps : List Step) :
    (parse (print steps) = steps ↔ ∀ step ∈ steps, step.IsPrintable) ∧
      ((∀ step ∈ steps, step.IsPrintable) → ∀ others : List Step,
        (∀ step ∈ others, step.IsPrintable) → print others = print steps → others = steps) := by
  refine ⟨⟨fun h => ?_, parse_print_of_isPrintable⟩, fun h others ho heq => ?_⟩
  · rw [← h]
    exact isPrintable_parse _
  · rw [← parse_print_of_isPrintable ho, heq, parse_print_of_isPrintable h]

/-- Keys that could be taken for something else, behind a name and an index. -/
theorem parse_print_keys :
    let steps : List Step :=
      [.name "orders", .index 0, .key "12", .key "", .key " a.[b ", .name "q"]
    (∀ step ∈ steps, step.IsPrintable) ∧
      print steps = "orders[0]['12'][''][' a.[b '].q" ∧ parse (print steps) = steps := by
  have hs : ∀ step ∈ ([.name "orders", .index 0, .key "12", .key "", .key " a.[b ", .name "q"] :
      List Step), step.IsPrintable := by decide +kernel
  exact ⟨hs, by decide +kernel, (parse_print_iff _).1.mpr hs⟩

end Path

end SqlTemplate
