import SqlTemplate.Pattern.Common
import SqlTemplate.Proofs.PatternReading

/-!
# The common dialect is lawful

A unit of a pattern is read in the same way whatever stands behind it. Only a question mark behind a
repetition or an opening parenthesis, and blanks, belong to what is in front of them.

* `Takes`: a reader takes a text off the front, whatever follows; `TakesUpTo`: up to a character;
  `TakesUnit`: whatever follows that begins as a closing parenthesis does;
* `Common.next?_takes`: how units are taken off the front;
* `Dialect.common_lawful`: the common dialect keeps the rules for patterns.
-/

namespace SqlTemplate.Pattern

/-! ## 1. Readers -/

section Readers

variable {α : Type} {read : List Char → Option (α × List Char)} {cs rest : List Char} {a : α}

/-- Whether a reader takes what stands in front of `rest`, whatever stands in its place. -/
def Takes (read : List Char → Option (α × List Char)) (cs : List Char) (a : α)
    (rest : List Char) : Prop :=
  ∃ used, cs = used ++ rest ∧ ∀ rest', read (used ++ rest') = some (a, rest')

/-- The same of a reader that stops behind a character. -/
def TakesUpTo (read : List Char → Option (α × List Char)) (last : Char) (cs : List Char) (a : α)
    (rest : List Char) : Prop :=
  ∃ body, cs = body ++ last :: rest ∧ ∀ rest', read (body ++ last :: rest') = some (a, rest')

theorem TakesUpTo.takes {last : Char} (h : TakesUpTo read last cs a rest) :
    Takes read cs a rest := by
  obtain ⟨body, rfl, hread⟩ := h
  refine ⟨body ++ [last], by rw [List.append_assoc]; rfl, fun rest' => ?_⟩
  rw [List.append_assoc]
  exact hread rest'

theorem head?_append_congr {α : Type} {xs ys : List α} (h : xs.head? = ys.head?) (front : List α) :
    (front ++ xs).head? = (front ++ ys).head? := by
  cases front with
  | nil => exact h
  | cons x front => rfl

/-- Whether a text has been cut at its front, where the same is cut in front of any text that begins
    in the same way as what is left. -/
def Cuts (cut : List Char → α × List Char) (cs : List Char) : Prop :=
  ∃ used, cs = used ++ (cut cs).2 ∧ ∀ rest' : List Char, rest'.head? = (cut cs).2.head? →
    cut (used ++ rest') = ((cut cs).1, rest')

/-- A cut that leaves the text as it is. -/
theorem Cuts.nothing {cut : List Char → α × List Char} (h : cut cs = (a, cs))
    (hcut : ∀ rest' : List Char, rest'.head? = cs.head? → cut rest' = (a, rest')) : Cuts cut cs := by
  unfold Cuts
  rw [h]
  exact ⟨[], rfl, hcut⟩

/-- A cut that takes one character off. -/
theorem Cuts.one {cut : List Char → α × List Char} {c : Char}
    (h : ∀ rest, cut (c :: rest) = (a, rest)) : Cuts cut (c :: rest) := by
  unfold Cuts
  rw [h]
  exact ⟨[c], rfl, fun rest' _ => h rest'⟩

/-- The longest run of characters of one kind, and what follows it. -/
theorem span_cuts (p : Char → Bool) (cs : List Char) :
    Cuts (fun cs => (cs.takeWhile p, cs.dropWhile p)) cs := by
  refine ⟨cs.takeWhile p, List.takeWhile_append_dropWhile.symm, fun rest' hr => ?_⟩
  have hall : ∀ c ∈ cs.takeWhile p, p c = true := List.all_eq_true.mp List.all_takeWhile
  dsimp only at hr ⊢
  rw [List.takeWhile_append_of_pos hall, List.dropWhile_append_of_pos hall]
  cases rest' with
  | nil => rw [List.takeWhile_nil, List.dropWhile_nil, List.append_nil]
  | cons c rest' =>
    have hc : p c = false := by
      have hnot := List.head?_dropWhile_not p cs
      rw [← hr] at hnot
      exact hnot
    have hneg : ¬p c = true := Bool.eq_false_iff.mp hc
    rw [List.takeWhile_cons_of_neg hneg, List.dropWhile_cons_of_neg hneg, List.append_nil]

/-- Whether a text may stand in the place of another one behind a unit: it begins in the same way,
    or there is nothing of it, or a closing parenthesis comes first. -/
def Replaces (rest' rest : List Char) : Prop :=
  rest'.head? = rest.head? ∨ ∀ c ∈ rest'.head?, c = ')'

theorem Replaces.append {rest' rest : List Char} (h : Replaces rest' rest) (front : List Char) :
    Replaces (front ++ rest') (front ++ rest) := by
  cases front with
  | nil => exact h
  | cons c front => exact .inl rfl

/-- What does not begin with a character of some kind is replaced by what does not, unless this
    kind has the closing parenthesis. -/
theorem Replaces.head {rest' rest : List Char} (h : Replaces rest' rest) {p : Char → Prop}
    (hp : ¬p ')') (hrest : ∀ c ∈ rest.head?, ¬p c) : ∀ c ∈ rest'.head?, ¬p c := by
  rcases h with h | h
  · rwa [h]
  · intro c hc
    rw [h c hc]
    exact hp

/-- Whether a reader takes what stands in front of `rest`, whatever may stand in its place. -/
def TakesUnit (read : List Char → Option (α × List Char)) (cs : List Char) (a : α)
    (rest : List Char) : Prop :=
  ∃ used, cs = used ++ rest ∧ ∀ rest', Replaces rest' rest → read (used ++ rest') = some (a, rest')

theorem Takes.takesUnit (h : Takes read cs a rest) : TakesUnit read cs a rest := by
  obtain ⟨used, hcs, hused⟩ := h
  exact ⟨used, hcs, fun rest' _ => hused rest'⟩

/-- A reader that takes nothing more. -/
theorem TakesUnit.alone (hread : ∀ xs, read xs = some (a, xs)) : TakesUnit read cs a cs :=
  ⟨[], rfl, fun rest' _ => hread rest'⟩

end Readers

namespace Common

variable {c d : Char} {cs rest : List Char} {flags : Flags}

/-! ## 2. Classes -/

theorem classChar?_plain (hc : c ≠ '\\') (rest : List Char) :
    classChar? (c :: rest) = some (c, rest) := by
  simp [classChar?, hc]

theorem classChar?_takes (h : classChar? cs = some (c, rest)) :
    ∃ used, used ≠ [] ∧ cs = used ++ rest ∧
      ∀ rest', classChar? (used ++ rest') = some (c, rest') := by
  fun_cases classChar? cs with
  | case1 d cs =>
    obtain ⟨e, he, hr⟩ := Option.map_eq_some_iff.mp h
    cases hr
    refine ⟨['\\', d], List.cons_ne_nil _ _, rfl, fun rest' => ?_⟩
    show (escaped? d).map _ = _
    rw [he]
    rfl
  | case2 => cases h
  | case3 d cs hpair hlone =>
    have hd : d ≠ '\\' := by
      intro hd
      cases cs with
      | nil => exact hlone hd rfl
      | cons e cs => exact hpair e cs hd rfl
    rw [classChar?_plain hd] at h
    cases h
    exact ⟨[c], List.cons_ne_nil _ _, rfl, classChar?_plain hd⟩
  | case4 => cases h

/-- A range is taken off whatever begins in the same way as what follows it. -/
theorem classItem?_takes {range : Char × Char} {mid : List Char}
    (h : classItem? cs = some (range, mid)) :
    ∃ used, used ≠ [] ∧ cs = used ++ mid ∧ ∀ mid' : List Char, mid'.head? = mid.head? →
      (mid.head? = some '-' → mid'.tail.head? = mid.tail.head?) →
        classItem? (used ++ mid') = some (range, mid') := by
  revert h
  fun_cases classItem? cs with
  | case1 => intro h; cases h
  | case2 first next hread hnext =>
    intro h
    cases h
    obtain ⟨used, hne, rfl, hused⟩ := classChar?_takes hread
    refine ⟨used, hne, rfl, fun mid' hhead htail => ?_⟩
    cases mid' with
    | nil => cases hhead
    | cons d mid' =>
      obtain rfl := Option.some.inj hhead
      have hnext' : mid'.head? = some ']' ∨ mid'.head? = some '-' := by
        rw [show mid'.head? = next.head? from htail rfl]
        exact hnext
      simp only [classItem?, hused, hnext', ↓reduceIte]
  | case3 => intro h; cases h
  | case4 first next hread hnext last rest hlast hle =>
    intro h
    cases h
    obtain ⟨used, hne, rfl, hused⟩ := classChar?_takes hread
    obtain ⟨used', hne', rfl, hused'⟩ := classChar?_takes hlast
    refine ⟨used ++ '-' :: used', by simp [hne], by simp, fun mid' hhead _ => ?_⟩
    have hnext' : ¬((used' ++ mid').head? = some ']' ∨ (used' ++ mid').head? = some '-') := by
      rw [head?_append_congr hhead]
      exact hnext
    rw [List.append_assoc, List.cons_append]
    simp only [classItem?, hused, hnext', ↓reduceIte, hused', hle]
  | case5 => intro h; cases h
  | case6 c rest hrest hread =>
    intro h
    cases h
    obtain ⟨used, hne, rfl, hused⟩ := classChar?_takes hread
    refine ⟨used, hne, rfl, fun mid' hhead _ => ?_⟩
    have hmid : ∀ next, mid' = '-' :: next → False := by
      rintro next rfl
      cases mid with
      | nil => cases hhead
      | cons d mid =>
        obtain rfl := Option.some.inj hhead
        exact hrest mid rfl
    simp only [classItem?, hused]

/-- A range of a class is taken off whatever stands behind the bracket. -/
theorem classItem?_class {range : Char × Char} {body : List Char}
    (h : classItem? cs = some (range, body ++ ']' :: rest)) :
    ∃ used, used ≠ [] ∧ cs = used ++ (body ++ ']' :: rest) ∧
      ∀ rest', classItem? (used ++ (body ++ ']' :: rest')) = some (range, body ++ ']' :: rest') := by
  obtain ⟨used, hne, hcs, hused⟩ := classItem?_takes h
  refine ⟨used, hne, hcs, fun rest' => ?_⟩
  have hbracket : (']' :: rest').head? = (']' :: rest).head? := rfl
  refine hused _ (head?_append_congr hbracket body) fun hhyphen => ?_
  cases body with
  | nil => exact absurd (Option.some.inj hhyphen) (by decide)
  | cons d body => exact head?_append_congr hbracket body

theorem classRanges?_item {fuel : Nat} (hclose : cs.head? ≠ some ']')
    (hopen : cs.head? ≠ some '[') :
    classRanges? (fuel + 1) cs = if isOperation cs then none else
      (classItem? cs).bind fun (range, rest) =>
        (classRanges? fuel rest).map fun (ranges, rest) => (range :: ranges, rest) := by
  rw [classRanges?.eq_def]
  dsimp only
  split
  · rfl
  · exact absurd rfl hclose
  · exact absurd rfl hopen
  · cases classItem? cs with
    | none => rfl
    | some item => rfl

/-- An operation is told by two characters, neither of which is a bracket. -/
theorem isOperation_congr {body : List Char} (h : body ≠ []) (rest rest' : List Char) :
    isOperation (body ++ ']' :: rest) = isOperation (body ++ ']' :: rest') := by
  match body with
  | [] => exact absurd rfl h
  | [_] => rfl
  | _ :: _ :: _ => rfl

theorem classRanges?_takes {fuel : Nat} {ranges : List (Char × Char)}
    (h : classRanges? fuel cs = some (ranges, rest)) :
    ∃ body, cs = body ++ ']' :: rest ∧ ∀ fuel' rest', body.length < fuel' →
      classRanges? fuel' (body ++ ']' :: rest') = some (ranges, rest') := by
  induction fuel generalizing cs ranges with
  | zero => cases h
  | succ fuel ih =>
    match cs with
    | [] => cases h
    | c :: cs =>
      by_cases hclose : c = ']'
      · subst hclose
        cases h
        refine ⟨[], rfl, fun fuel' rest' hlt => ?_⟩
        obtain ⟨fuel', rfl⟩ := Nat.exists_eq_add_one_of_ne_zero (Nat.ne_of_gt hlt)
        rfl
      by_cases hopen : c = '['
      · subst hopen
        cases h
      -- one range, behind which the bracket is still to come
      have hheads (xs : List Char) (hxs : xs.head? = some c) :
          xs.head? ≠ some ']' ∧ xs.head? ≠ some '[' := by
        rw [hxs]
        exact ⟨fun he => hclose (Option.some.inj he), fun he => hopen (Option.some.inj he)⟩
      rw [classRanges?_item (hheads _ rfl).1 (hheads _ rfl).2] at h
      by_cases hop : isOperation (c :: cs) = true
      · rw [if_pos hop] at h
        cases h
      rw [if_neg hop] at h
      obtain ⟨⟨range, mid⟩, hitem, hmap⟩ := Option.bind_eq_some_iff.mp h
      obtain ⟨⟨ranges, rest⟩, hrest, hr⟩ := Option.map_eq_some_iff.mp hmap
      cases hr
      obtain ⟨body, rfl, hbody⟩ := ih hrest
      obtain ⟨used, hne, hcs, hused⟩ := classItem?_class hitem
      refine ⟨used ++ body, by rw [hcs, List.append_assoc], fun fuel' rest' hlt => ?_⟩
      have hlen : 0 < used.length := List.length_pos_iff.mpr hne
      rw [List.length_append] at hlt
      obtain ⟨fuel', rfl⟩ := Nat.exists_eq_add_one_of_ne_zero (Nat.ne_of_gt (Nat.zero_lt_of_lt hlt))
      have hhead : (used ++ (body ++ ']' :: rest')).head? = some c := by
        obtain ⟨d, used, rfl⟩ := List.exists_cons_of_ne_nil hne
        exact congrArg some (List.cons.inj hcs).1.symm
      have hop' : ¬isOperation (used ++ (body ++ ']' :: rest')) = true := by
        rw [← List.append_assoc, isOperation_congr (by simp [hne]) rest' rest, List.append_assoc,
          ← hcs]
        exact hop
      rw [List.append_assoc, classRanges?_item (hheads _ hhead).1 (hheads _ hhead).2, if_neg hop',
        hused, Option.bind_some]
      dsimp only
      rw [hbody fuel' rest' (by omega), Option.map_some]

theorem dropCaret_cuts (cs : List Char) : Cuts dropCaret cs := by
  by_cases h : cs.head? = some '^'
  · obtain ⟨rest, rfl⟩ := List.head?_eq_some_iff.mp h
    exact .one fun _ => rfl
  · have hplain (xs : List Char) (hxs : xs.head? ≠ some '^') : dropCaret xs = (false, xs) := by
      unfold dropCaret
      split
      · exact absurd rfl hxs
      · rfl
    exact .nothing (hplain cs h) fun rest' hr => hplain rest' (hr ▸ h)

theorem firstRanges_cuts (hyphens : List (Char × Char)) (cs : List Char) :
    Cuts (firstRanges hyphens) cs := by
  by_cases h : hyphens = [] ∧ cs.head? = some ']'
  · obtain ⟨rfl, h⟩ := h
    obtain ⟨rest, rfl⟩ := List.head?_eq_some_iff.mp h
    exact .one fun _ => rfl
  · have hplain (xs : List Char) (hxs : ¬(hyphens = [] ∧ xs.head? = some ']')) :
        firstRanges hyphens xs = (hyphens, xs) := by
      unfold firstRanges
      split
      · exact absurd ⟨rfl, rfl⟩ hxs
      · rfl
    exact .nothing (hplain cs h) fun rest' hr => hplain rest' (hr ▸ h)

theorem leadingHyphens_cuts (cs : List Char) : Cuts leadingHyphens cs := by
  fun_induction leadingHyphens cs with
  | case1 cs ranges rest hcs ih =>
    obtain ⟨used, hused, hcut⟩ := ih
    rw [hcs] at hused hcut
    have hstep (xs : List Char) : leadingHyphens ('-' :: xs) =
      (('-', '-') :: (leadingHyphens xs).1, (leadingHyphens xs).2) := rfl
    refine ⟨'-' :: used, ?_, fun rest' hr => ?_⟩
    · rw [hstep, hcs]
      exact congrArg ('-' :: ·) hused
    · rw [hstep, hcs] at hr
      rw [List.cons_append, hstep, hstep, hcs, hcut rest' hr]
  | case2 cs hcs =>
    have hplain (xs : List Char) (hxs : xs.head? ≠ some '-') : leadingHyphens xs = ([], xs) := by
      unfold leadingHyphens
      split
      · exact absurd rfl hxs
      · rfl
    have h : cs.head? ≠ some '-' := by
      intro h
      obtain ⟨rest, rfl⟩ := List.head?_eq_some_iff.mp h
      exact hcs rest rfl
    exact .nothing (hplain cs h) fun rest' hr => hplain rest' (hr ▸ h)

theorem class?_takes {s : CharClass} (h : class? cs = some (s, rest)) :
    TakesUpTo class? ']' cs s rest := by
  unfold class? at h
  dsimp only at h
  obtain ⟨⟨ranges, rest⟩, hranges, hr⟩ := Option.map_eq_some_iff.mp h
  cases hr
  obtain ⟨body, hbody, hbody'⟩ := classRanges?_takes hranges
  -- what stands in front of the ranges, from the caret on
  obtain ⟨caret, hcaret, hcaret'⟩ := dropCaret_cuts cs
  obtain ⟨hyphens, hhyphens, hhyphens'⟩ := leadingHyphens_cuts (dropCaret cs).2
  obtain ⟨first, hfirst, hfirst'⟩ :=
    firstRanges_cuts (leadingHyphens (dropCaret cs).2).1 (leadingHyphens (dropCaret cs).2).2
  rw [hbody] at hfirst
  rw [hfirst] at hhyphens
  rw [hhyphens] at hcaret
  refine ⟨caret ++ (hyphens ++ (first ++ body)), ?_, fun rest' => ?_⟩
  · rw [hcaret]
    simp only [List.append_assoc]
  · have hhead : (body ++ ']' :: rest').head? = (body ++ ']' :: rest).head? :=
      head?_append_congr (show (']' :: rest').head? = (']' :: rest).head? from rfl) body
    have hdropped := hcaret' (hyphens ++ (first ++ (body ++ ']' :: rest'))) (by
      rw [hhyphens]
      exact head?_append_congr (head?_append_congr hhead first) hyphens)
    have hled := hhyphens' (first ++ (body ++ ']' :: rest')) (by
      rw [hfirst]
      exact head?_append_congr hhead first)
    have hstarted := hfirst' (body ++ ']' :: rest') (by rw [hbody]; exact hhead)
    have hlen : body.length < (body ++ ']' :: rest').length + 1 := by
      rw [List.length_append]
      omega
    simp only [List.append_assoc]
    unfold class?
    simp only [hdropped, hled, hstarted, hbody' _ rest' hlen, Option.map_some]

/-! ## 3. Repetitions -/

theorem trimStart_cuts (cs : List Char) :
    Cuts (fun cs => (cs.takeWhile Text.isBlank, Text.trimStart cs)) cs := span_cuts Text.isBlank cs

theorem count?_eq (cs : List Char) : count? cs =
    match Text.digitsValue? ((Text.trimStart cs).takeWhile Char.isDigit) with
    | some n =>
      if n < twoTo 32 then some (n, Text.trimStart ((Text.trimStart cs).dropWhile Char.isDigit))
      else none
    | none => none := rfl

theorem count?_takes {n : Nat} (h : count? cs = some (n, c :: rest)) :
    ∃ used, cs = used ++ c :: rest ∧
      ∀ rest', count? (used ++ c :: rest') = some (n, c :: rest') := by
  obtain ⟨before, hbefore, hbefore'⟩ := trimStart_cuts cs
  obtain ⟨digits, hdigits, hdigits'⟩ := span_cuts Char.isDigit (Text.trimStart cs)
  obtain ⟨behind, hbehind, hbehind'⟩ :=
    trimStart_cuts ((Text.trimStart cs).dropWhile Char.isDigit)
  dsimp only at hbefore hbefore' hdigits hdigits' hbehind hbehind'
  rw [count?_eq] at h
  split at h
  · rename_i m hm
    by_cases hlt : m < twoTo 32
    · rw [if_pos hlt] at h
      obtain ⟨rfl, hrest⟩ := Prod.mk.inj (Option.some.inj h)
      rw [hrest] at hbehind hbehind'
      refine ⟨before ++ (digits ++ behind), ?_, fun rest' => ?_⟩
      · calc cs = before ++ Text.trimStart cs := hbefore
          _ = before ++ (digits ++ (behind ++ c :: rest)) := by rw [← hbehind, ← hdigits]
          _ = _ := by simp only [List.append_assoc]
      · have hhead : (behind ++ c :: rest').head? = (behind ++ c :: rest).head? :=
          head?_append_congr (show (c :: rest').head? = (c :: rest).head? from rfl) behind
        have hrun := Prod.mk.inj (hdigits' (behind ++ c :: rest') (by rw [hbehind, hhead]))
        have hstart := Prod.mk.inj (hbefore' (digits ++ (behind ++ c :: rest')) (by
          rw [hdigits, hbehind]
          exact head?_append_congr hhead digits))
        have hstop := Prod.mk.inj (hbehind' (c :: rest') rfl)
        rw [count?_eq, List.append_assoc, List.append_assoc, hstart.2, hrun.1, hrun.2, hstop.2, hm]
        exact if_pos hlt
    · rw [if_neg hlt] at h
      cases h
  · cases h

theorem bounds?_takes {least : Nat} {most : Option Nat} (h : bounds? cs = some (least, most, rest)) :
    ∃ body, cs = body ++ '}' :: rest ∧
      ∀ rest', bounds? (body ++ '}' :: rest') = some (least, most, rest') := by
  revert h
  fun_cases bounds? cs with
  | case1 => intro h; cases h
  | case2 n rest hn =>
    intro h
    cases h
    obtain ⟨used, rfl, hused⟩ := count?_takes hn
    refine ⟨used, rfl, fun rest' => ?_⟩
    simp only [bounds?, hused]
  | case3 n next hn rest hnext =>
    intro h
    cases h
    obtain ⟨used, rfl, hused⟩ := count?_takes hn
    obtain ⟨blanks, hblanks, hblanks'⟩ := trimStart_cuts next
    dsimp only at hblanks hblanks'
    rw [hnext] at hblanks hblanks'
    refine ⟨used ++ ',' :: blanks, by rw [hblanks]; simp, fun rest' => ?_⟩
    have htrim := (Prod.mk.inj (hblanks' ('}' :: rest') rfl)).2
    simp only [bounds?, List.append_assoc, List.cons_append, hused, htrim]
  | case4 n next hn m rest hle hnext hm =>
    intro h
    cases h
    obtain ⟨used, rfl, hused⟩ := count?_takes hn
    obtain ⟨blanks, hblanks, hblanks'⟩ := trimStart_cuts next
    obtain ⟨used', hused', hm'⟩ := count?_takes hm
    dsimp only at hblanks hblanks'
    rw [hused'] at hblanks hblanks'
    refine ⟨used ++ ',' :: (blanks ++ used'), by rw [hblanks]; simp, fun rest' => ?_⟩
    have htrim := (Prod.mk.inj (hblanks' (used' ++ '}' :: rest')
      (head?_append_congr (show ('}' :: rest').head? = ('}' :: rest).head? from rfl) used'))).2
    have hnext' : ∀ more, used' ++ '}' :: rest' = '}' :: more → False := by
      intro more hmore
      cases used' with
      | nil => exact hnext rest hused'
      | cons d used' =>
        obtain rfl := (List.cons.inj hmore).1
        exact hnext _ hused'
    simp only [bounds?, List.append_assoc, List.cons_append, hused, htrim, hm' rest', hle, ↓reduceIte]
  | case5 => intro h; cases h
  | case6 => intro h; cases h
  | case7 => intro h; cases h

/-! ## 4. Flags -/

theorem flagLetters?_takes {on off on' off' : List Char} {negative : Bool}
    (h : flagLetters? on off negative cs = some (on', off', c :: rest)) :
    ∃ used, cs = used ++ c :: rest ∧
      ∀ rest', flagLetters? on off negative (used ++ c :: rest') = some (on', off', c :: rest') := by
  fun_induction flagLetters? on off negative cs with
  | case1 => cases h
  | case2 => cases h
  | case3 on off negative d cs hd hn =>
    cases h
    refine ⟨[], rfl, fun rest' => ?_⟩
    simp only [List.nil_append, flagLetters?, hd, hn, ↓reduceIte]
  | case4 => cases h
  | case5 on off negative cs hn hd ih =>
    obtain ⟨used, rfl, hused⟩ := ih h
    refine ⟨'-' :: used, rfl, fun rest' => ?_⟩
    simp only [List.cons_append, flagLetters?, hd, hn, ↓reduceIte, hused, Bool.false_eq_true]
  | case6 on off d cs hd hm hf ih =>
    obtain ⟨used, rfl, hused⟩ := ih h
    refine ⟨d :: used, rfl, fun rest' => ?_⟩
    simp only [List.cons_append, flagLetters?, hd, hm, hf, ↓reduceIte, hused, and_self]
  | case7 on off negative d cs hd hm hf hn ih =>
    obtain ⟨used, rfl, hused⟩ := ih h
    refine ⟨d :: used, rfl, fun rest' => ?_⟩
    simp only [List.cons_append, flagLetters?, hd, hm, hf, hn, ↓reduceIte, hused, and_self,
      Bool.false_eq_true]
  | case8 => cases h

theorem flagged?_takes {u : Unit} (h : flagged? flags cs = some (u, rest)) :
    Takes (flagged? flags) cs u rest := by
  revert h
  fun_cases flagged? flags cs with
  | case1 on off rest hflags =>
    intro h
    cases h
    obtain ⟨used, hcs, hused⟩ := flagLetters?_takes hflags
    refine TakesUpTo.takes ⟨used, hcs, fun rest' => ?_⟩
    simp only [flagged?, hused]
  | case2 => intro h; cases h
  | case3 on off rest hflags hsome =>
    intro h
    cases h
    obtain ⟨used, hcs, hused⟩ := flagLetters?_takes hflags
    refine TakesUpTo.takes ⟨used, hcs, fun rest' => ?_⟩
    simp only [flagged?, hused, hsome, ↓reduceIte]
  | case4 => intro h; cases h

/-! ## 5. Blanks -/

/-- Whether a character begins blanks or a comment. -/
def Skips (c : Char) : Prop := Text.isBlank c = true ∨ c = '#'

theorem not_skips_closing : ¬Skips ')' := by
  rintro (h | h)
  · exact absurd h (by decide +kernel)
  · exact absurd h (by decide)

theorem skip?_stop (h : ∀ c ∈ cs.head?, ¬Skips c) : skip? false cs = some cs := by
  cases cs with
  | nil => rfl
  | cons c cs =>
    have hc := not_or.mp (h c rfl)
    rw [skip?, if_neg (by decide), if_neg hc.1, if_neg hc.2]

/-- What stands behind blanks and comments begins with neither. -/
theorem skip?_head {inComment : Bool} (h : skip? inComment cs = some rest) :
    ∀ c ∈ rest.head?, ¬Skips c := by
  fun_induction skip? inComment cs with
  | case1 => cases h
  | case2 => cases h; exact fun c hc => nomatch hc
  | case3 c cs ih => exact ih h
  | case4 _ c cs _ _ ih => exact ih h
  | case5 _ cs _ _ ih => exact ih h
  | case6 inComment c cs hcomment hblank hsign =>
    cases h
    rintro d ⟨⟩ (hd | hd)
    · exact hblank hd
    · exact hsign hd

theorem skip?_takes {inComment : Bool} (h : skip? inComment cs = some rest) :
    ∃ used, cs = used ++ rest ∧ ∀ rest', Replaces rest' rest →
      skip? inComment (used ++ rest') = some rest' := by
  fun_induction skip? inComment cs with
  | case1 => cases h
  | case2 inComment hcomment =>
    cases h
    obtain rfl := Bool.eq_false_iff.mpr hcomment
    exact ⟨[], rfl, fun rest' hr => skip?_stop (hr.head not_skips_closing fun c hc => nomatch hc)⟩
  | case3 c cs ih =>
    obtain ⟨used, rfl, hused⟩ := ih h
    refine ⟨c :: used, rfl, fun rest' hr => ?_⟩
    rw [List.cons_append, skip?, if_pos rfl, hused rest' hr]
  | case4 inComment c cs hcomment hblank ih =>
    obtain ⟨used, rfl, hused⟩ := ih h
    refine ⟨c :: used, rfl, fun rest' hr => ?_⟩
    rw [List.cons_append, skip?, if_neg hcomment, if_pos hblank, hused rest' hr]
  | case5 inComment cs hcomment hblank ih =>
    obtain ⟨used, rfl, hused⟩ := ih h
    refine ⟨'#' :: used, rfl, fun rest' hr => ?_⟩
    rw [List.cons_append, skip?, if_neg hcomment, if_neg hblank, if_pos rfl, hused rest' hr]
  | case6 inComment c cs hcomment hblank hsign =>
    cases h
    obtain rfl := Bool.eq_false_iff.mpr hcomment
    refine ⟨[], rfl, fun rest' hr => skip?_stop (hr.head not_skips_closing ?_)⟩
    rintro d ⟨⟩ (hd | hd)
    · exact hblank hd
    · exact hsign hd

/-- A comment that is still open takes in what follows on its line. -/
theorem skip?_append {inComment : Bool} (h : skip? inComment cs = none) {tail : List Char}
    (ht : '\n' ∉ tail) : skip? inComment (cs ++ tail) = none := by
  fun_induction skip? inComment cs with
  | case1 =>
    induction tail with
    | nil => rfl
    | cons c tail ih =>
      obtain ⟨hc, ht⟩ := not_or.mp (mt List.mem_cons.mpr ht)
      have hline : (c != '\n') = true := bne_iff_ne.mpr (Ne.symm hc)
      rw [List.nil_append, skip?, if_pos rfl, hline]
      exact ih ht
  | case2 => cases h
  | case3 c cs ih => rw [List.cons_append, skip?, if_pos rfl, ih h]
  | case4 inComment c cs hcomment hblank ih =>
    rw [List.cons_append, skip?, if_neg hcomment, if_pos hblank, ih h]
  | case5 inComment cs hcomment hblank ih =>
    rw [List.cons_append, skip?, if_neg hcomment, if_neg hblank, if_pos rfl, ih h]
  | case6 => cases h

theorem skipFor?_takes (h : skipFor? flags cs = some rest) : ∃ used, cs = used ++ rest ∧
    ∀ rest', Replaces rest' rest → skipFor? flags (used ++ rest') = some rest' := by
  unfold skipFor? at h ⊢
  by_cases hv : flags.verbose = true
  · simp only [if_pos hv] at h ⊢
    exact skip?_takes h
  · simp only [if_neg hv] at h ⊢
    cases h
    exact ⟨[], rfl, fun rest' _ => rfl⟩

theorem consumed_append (used rest : List Char) : consumed (used ++ rest) rest = used := by
  unfold consumed
  rw [List.length_append, Nat.add_sub_cancel, List.take_left']
  rfl

/-! ## 6. Units -/

/-- A question mark behind a repetition belongs to it. -/
theorem dropLazy_takes (cs : List Char) : ∃ used, cs = used ++ dropLazy cs ∧
    ∀ rest', Replaces rest' (dropLazy cs) → dropLazy (used ++ rest') = rest' := by
  have hplain {xs : List Char} (hxs : ∀ c ∈ xs.head?, ¬c = '?') : dropLazy xs = xs := by
    unfold dropLazy
    split
    · exact absurd rfl (hxs '?' rfl)
    · rfl
  by_cases h : cs.head? = some '?'
  · obtain ⟨rest, rfl⟩ := List.head?_eq_some_iff.mp h
    exact ⟨['?'], rfl, fun _ _ => rfl⟩
  · have hcs : ∀ c ∈ cs.head?, ¬c = '?' := by
      rintro c hc rfl
      exact h hc
    rw [hplain hcs]
    exact ⟨[], rfl, fun rest' hr => hplain (hr.head (by decide) hcs)⟩

/-- A repetition of one character and a question mark behind it. -/
theorem lazy_takes {read : List Char → Option (Unit × List Char)} {u : Unit}
    (hread : ∀ xs, read xs = some (u, dropLazy xs)) : TakesUnit read cs u (dropLazy cs) := by
  obtain ⟨used, hcs, hused⟩ := dropLazy_takes cs
  exact ⟨used, hcs, fun rest' hr => by rw [hread, hused rest' hr]⟩

theorem counted?_takes {u : Unit} (h : counted? flags cs = some (u, rest)) :
    TakesUnit (counted? flags) cs u rest := by
  revert h
  fun_cases counted? flags cs with
  | case1 => intro h; cases h
  | case2 least most mid hbounds hsolid =>
    intro h
    obtain ⟨mid', hskip, hr⟩ := Option.map_eq_some_iff.mp h
    cases hr
    obtain ⟨body, rfl, hbody⟩ := bounds?_takes hbounds
    obtain ⟨blanks, rfl, hblanks⟩ := skipFor?_takes hskip
    obtain ⟨mark, hmark, hmark'⟩ := dropLazy_takes mid'
    refine ⟨body ++ '}' :: (blanks ++ mark), ?_, fun rest' hr => ?_⟩
    · rw [List.append_assoc, List.cons_append, List.append_assoc, ← hmark]
    · have hreplaces : Replaces (mark ++ rest') mid' := by
        have := hr.append mark
        rwa [← hmark] at this
      have hsame (xs : List Char) : consumed (body ++ '}' :: xs) xs = body ++ ['}'] := by
        rw [← List.singleton_append, ← List.append_assoc, consumed_append]
      rw [hsame] at hsolid
      simp only [counted?, List.append_assoc, List.cons_append, hbody, hsame, hsolid, ↓reduceIte,
        hblanks _ hreplaces, Option.map_some, hmark' rest' hr]
  | case3 => intro h; cases h

theorem bracketed?_takes {u : Unit} (h : bracketed? flags cs = some (u, rest)) :
    Takes (bracketed? flags) cs u rest := by
  revert h
  fun_cases bracketed? flags cs with
  | case1 => intro h; cases h
  | case2 s mid hclass hsolid =>
    intro h
    cases h
    obtain ⟨used, rfl, hused⟩ := (class?_takes hclass).takes
    rw [consumed_append] at hsolid
    refine ⟨used, rfl, fun rest' => ?_⟩
    simp only [bracketed?, hused, consumed_append, hsolid, ↓reduceIte]
  | case3 => intro h; cases h

theorem escape?_takes {u : Unit} (h : escape? flags cs = some (u, rest)) :
    Takes (escape? flags) cs u rest := by
  revert h
  fun_cases escape? flags cs with
  | case1 => intro h; cases h
  | case2 rest => intro h; cases h; exact ⟨['A'], rfl, fun _ => rfl⟩
  | case3 rest => intro h; cases h; exact ⟨['z'], rfl, fun _ => rfl⟩
  | case4 d rest hA hz =>
    intro h
    obtain ⟨e, he, hr⟩ := Option.map_eq_some_iff.mp h
    cases hr
    refine ⟨[d], rfl, fun rest' => ?_⟩
    simp only [List.singleton_append, escape?, he, Option.map_some]

/-- **A unit that opens no group ends where it ends whatever follows.** -/
theorem plain?_takes {u : Unit} (h : plain? flags c cs = some (u, rest)) :
    TakesUnit (plain? flags c) cs u rest := by
  revert h
  fun_cases plain? flags c cs with
  | case6 | case7 | case8 => intro h; cases h; exact lazy_takes fun _ => rfl
  | case9 => exact counted?_takes
  | case10 => exact fun h => Takes.takesUnit (bracketed?_takes h)
  | case11 => exact fun h => Takes.takesUnit (escape?_takes h)
  | case12 =>
    intro h
    cases h
    refine .alone fun xs => ?_
    unfold plain?
    split
    any_goals contradiction
    rfl
  | _ => intro h; cases h; exact .alone fun _ => rfl

/-- Such a unit is no comment, and only a closing parenthesis ends a group. -/
theorem plain?_kind {u : Unit} (h : plain? flags c cs = some (u, rest)) :
    u ≠ .comment ∧ (u = .closing → c = ')' ∧ cs = rest) := by
  revert h
  fun_cases plain? flags c cs with
  | case5 => intro h; cases h; exact ⟨nofun, fun _ => ⟨rfl, rfl⟩⟩
  | case9 =>
    fun_cases counted? flags cs with
    | case2 =>
      intro h
      obtain ⟨_, -, hr⟩ := Option.map_eq_some_iff.mp h
      cases hr
      exact ⟨nofun, nofun⟩
    | _ => intro h; cases h
  | case10 =>
    fun_cases bracketed? flags cs with
    | case2 => intro h; cases h; exact ⟨nofun, nofun⟩
    | _ => intro h; cases h
  | case11 =>
    fun_cases escape? flags cs with
    | case4 =>
      intro h
      obtain ⟨_, -, hr⟩ := Option.map_eq_some_iff.mp h
      cases hr
      exact ⟨nofun, nofun⟩
    | _ => intro h; cases h <;> exact ⟨nofun, nofun⟩
  | _ => intro h; cases h; exact ⟨nofun, nofun⟩

/-! ## 7. Groups -/

section Groups

variable {names names' : List (List Char)} {u : Unit}

theorem named?_takes (h : named? flags names cs = some (u, names', rest)) :
    ∃ used, cs = used ++ rest ∧
      ∀ rest', named? flags names (used ++ rest') = some (u, names', rest') := by
  obtain ⟨name, hname, hname'⟩ := span_cuts isNameChar cs
  dsimp only at hname hname'
  revert h
  fun_cases named? flags names cs with
  | case1 known mid hmid hok =>
    intro h
    cases h
    rw [hmid] at hname hname'
    refine ⟨name ++ ['>'], by rw [List.append_assoc]; exact hname, fun rest' => ?_⟩
    obtain ⟨htake, hdrop⟩ := Prod.mk.inj (hname' ('>' :: rest') rfl)
    rw [List.append_assoc, List.singleton_append]
    unfold named?
    simp only [htake, hdrop]
    exact if_pos hok
  | case2 => intro h; cases h
  | case3 => intro h; cases h

theorem group?_takes (h : group? flags names cs = some (u, names', rest)) :
    ∃ used, cs = used ++ rest ∧
      ∀ rest', group? flags names (used ++ rest') = some (u, names', rest') := by
  revert h
  fun_cases group? flags names cs with
  | case1 cs =>
    intro h
    obtain ⟨used, rfl, hused⟩ := named?_takes h
    exact ⟨'P' :: '<' :: used, rfl, fun rest' => hused rest'⟩
  | case2 cs =>
    intro h
    obtain ⟨used, rfl, hused⟩ := named?_takes h
    exact ⟨'<' :: used, rfl, fun rest' => hused rest'⟩
  | case3 hP hangle =>
    intro h
    obtain ⟨⟨v, mid⟩, hflagged, hr⟩ := Option.map_eq_some_iff.mp h
    cases hr
    obtain ⟨used, rfl, hused⟩ := flagged?_takes hflagged
    refine ⟨used, rfl, fun rest' => ?_⟩
    have hread := hused rest'
    unfold group?
    -- flags begin with neither of the characters that begin a name
    split
    · rename_i more hmore
      rw [hmore] at hread
      cases hread
    · rename_i more hmore
      rw [hmore] at hread
      cases hread
    · rw [hread]
      rfl

/-- What begins with a question mark is no unit that ends a group or says nothing. -/
theorem group?_kind (h : group? flags names cs = some (u, names', rest)) :
    u ≠ .comment ∧ u ≠ .closing := by
  have hnamed {cs : List Char} (h : named? flags names cs = some (u, names', rest)) :
      u ≠ .comment ∧ u ≠ .closing := by
    revert h
    fun_cases named? flags names cs with
    | case1 => intro h; cases h; exact ⟨nofun, nofun⟩
    | _ => intro h; cases h
  revert h
  fun_cases group? flags names cs with
  | case1 => exact hnamed
  | case2 => exact hnamed
  | case3 =>
    intro h
    obtain ⟨⟨v, mid⟩, hflagged, hr⟩ := Option.map_eq_some_iff.mp h
    cases hr
    revert hflagged
    fun_cases flagged? flags cs with
    | case1 => intro h; cases h; exact ⟨nofun, nofun⟩
    | case3 => intro h; cases h; exact ⟨nofun, nofun⟩
    | _ => intro h; cases h

/-! ## 8. The unit at the front -/

/-- Where comments are allowed, an open one is the only unit of its kind. -/
theorem next?_comment (h : next? flags names cs = some (.comment, names', rest)) :
    rest = [] ∧ flags.verbose = true ∧ ∃ c more, cs = c :: more ∧ Skips c ∧
      skip? false (c :: more) = none := by
  revert h
  fun_cases next? flags names cs with
  | case3 c cs hskips hskip =>
    intro h
    cases h
    exact ⟨rfl, hskips.1, c, cs, rfl, hskips.2, hskip⟩
  | case5 cs _ rest hgroup => exact fun h => absurd rfl (group?_kind h).1
  | case7 c cs =>
    intro h
    obtain ⟨⟨v, mid⟩, hplain, hr⟩ := Option.map_eq_some_iff.mp h
    cases hr
    exact absurd rfl (plain?_kind hplain).1
  | _ => intro h; cases h

theorem next?_closing (h : next? flags names cs = some (.closing, names', rest)) :
    cs = ')' :: rest := by
  revert h
  fun_cases next? flags names cs with
  | case5 cs _ rest hgroup => exact fun h => absurd rfl (group?_kind h).2
  | case7 c cs =>
    intro h
    obtain ⟨⟨v, mid⟩, hplain, hr⟩ := Option.map_eq_some_iff.mp h
    cases hr
    obtain ⟨rfl, rfl⟩ := (plain?_kind hplain).2 rfl
    rfl
  | _ => intro h; cases h

/-- **A unit ends where it ends whatever follows**, but for a comment. -/
theorem next?_takes (h : next? flags names cs = some (u, names', rest)) (hu : u ≠ .comment) :
    ∃ used, used ≠ [] ∧ cs = used ++ rest ∧ ∀ rest', Replaces rest' rest →
      next? flags names (used ++ rest') = some (u, names', rest') := by
  revert h
  fun_cases next? flags names cs with
  | case1 => intro h; cases h
  | case2 c cs hskips mid hskip =>
    intro h
    cases h
    obtain ⟨used, hused, hused'⟩ := skip?_takes hskip
    cases used with
    | nil => exact absurd hskips.2 (skip?_head hskip c (by rw [← List.nil_append rest, ← hused]; rfl))
    | cons d used =>
      obtain ⟨rfl, rfl⟩ := List.cons.inj hused
      refine ⟨c :: used, List.cons_ne_nil _ _, rfl, fun rest' hr => ?_⟩
      have hread := hused' rest' hr
      rw [List.cons_append] at hread ⊢
      unfold next?
      rw [if_pos hskips, hread]
  | case3 => intro h; cases h; exact absurd rfl hu
  | case4 => intro h; cases h
  | case5 cs mid hskip hskips =>
    intro h
    obtain ⟨blanks, rfl, hblanks⟩ := skipFor?_takes hskip
    obtain ⟨used, rfl, hused⟩ := group?_takes h
    refine ⟨'(' :: (blanks ++ '?' :: used), List.cons_ne_nil _ _, by simp, fun rest' _ => ?_⟩
    rw [List.cons_append, List.append_assoc, List.cons_append]
    unfold next?
    rw [if_neg hskips, if_pos rfl, hblanks ('?' :: (used ++ rest')) (.inl rfl)]
    exact hused rest'
  | case6 cs mid hmark hskip hskips =>
    intro h
    cases h
    obtain ⟨blanks, rfl, hblanks⟩ := skipFor?_takes hskip
    have hhead : ∀ c ∈ rest.head?, ¬c = '?' := by
      rintro c hc rfl
      obtain ⟨more, rfl⟩ := List.head?_eq_some_iff.mp hc
      exact hmark more rfl
    refine ⟨'(' :: blanks, List.cons_ne_nil _ _, rfl, fun rest' hr => ?_⟩
    rw [List.cons_append]
    unfold next?
    rw [if_neg hskips, if_pos rfl, hblanks rest' hr]
    split
    · rename_i heq
      cases heq
    · rename_i more heq
      cases heq
      exact absurd rfl (hr.head (p := (· = '?')) (by decide) hhead '?' rfl)
    · rename_i heq
      cases heq
      rfl
  | case7 c cs hskips hopening =>
    intro h
    obtain ⟨⟨v, mid⟩, hplain, hr⟩ := Option.map_eq_some_iff.mp h
    cases hr
    obtain ⟨used, rfl, hused⟩ := plain?_takes hplain
    refine ⟨c :: used, List.cons_ne_nil _ _, rfl, fun rest' hr => ?_⟩
    rw [List.cons_append]
    unfold next?
    rw [if_neg hskips, if_neg hopening, hused rest' hr]
    rfl

end Groups

end Common

/-! ## 9. The rules -/

section Rules

open Common

/-- A text in front of a closing parenthesis stands in the place of the text by itself, and the
    other way round. -/
theorem replaces_closing (rest tail : List Char) :
    Replaces (rest ++ ')' :: tail) rest ∧ Replaces rest (rest ++ ')' :: tail) := by
  cases rest with
  | nil => exact ⟨.inr fun c hc => (Option.some.inj hc).symm, .inr fun c hc => nomatch hc⟩
  | cons c rest => exact ⟨.inl rfl, .inl rfl⟩

/-- **The common dialect keeps the rules for patterns.** -/
theorem Dialect.common_lawful : Dialect.common.Lawful where
  takes {flags names cs l names' rest} h := by
    by_cases hl : l = .comment
    · subst hl
      obtain ⟨rfl, -, c, more, rfl, -⟩ := next?_comment h
      exact ⟨c :: more, List.cons_ne_nil _ _, (List.append_nil _).symm⟩
    · obtain ⟨used, hne, hcs, -⟩ := next?_takes h hl
      exact ⟨used, hne, hcs⟩
  closing flags names cs := by
    refine ⟨names, ?_⟩
    show Common.next? flags names (')' :: cs) = _
    rw [Common.next?, if_neg fun h => not_skips_closing h.2, if_neg (by decide)]
    rfl
  closed := next?_closing
  stops {flags names cs l names' rest} tail hl := by
    constructor
    · intro h
      obtain ⟨used, -, hcs, hused⟩ := next?_takes h hl
      rw [← List.append_assoc] at hcs
      rw [List.append_cancel_right hcs]
      exact hused rest (replaces_closing rest tail).2
    · intro h
      obtain ⟨used, -, rfl, hused⟩ := next?_takes h hl
      rw [List.append_assoc]
      exact hused _ (replaces_closing rest tail).1
  comment {flags names cs names' rest} h := by
    obtain ⟨rfl, hverbose, c, more, rfl, hskips, hskip⟩ := next?_comment h
    refine ⟨rfl, fun tail ht => ⟨names, ?_⟩⟩
    show Common.next? flags names (c :: (more ++ tail)) = _
    have hopen := skip?_append hskip ht
    rw [List.cons_append] at hopen
    rw [Common.next?, if_pos ⟨hverbose, hskips⟩, hopen]
  caret _ := rfl
  start {text i j} := by
    show j ∈ Atom.ends text i (.start false) ↔ _
    by_cases hi : i = 0
    · simp [Atom.ends, Atom.atStart, hi]
    · simp [Atom.ends, Atom.atStart, hi]
  group _ := rfl
  dollar names := ⟨names, rfl⟩
  stop {text i j} := by
    show j ∈ Atom.ends text i (.stop false) ↔ _
    by_cases hi : i = text.length
    · simp [Atom.ends, Atom.atStop, hi]
    · simp [Atom.ends, Atom.atStop, hi]

end Rules

end SqlTemplate.Pattern
