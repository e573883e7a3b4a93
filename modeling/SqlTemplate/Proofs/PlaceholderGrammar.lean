import Mathlib.Data.List.Basic
import Mathlib.Data.List.Infix
import SqlTemplate.Proofs.PathReading
import SqlTemplate.Proofs.TokenLoop

/-!
# The grammar of placeholder contents

What a placeholder may say, as productions over its text, and the parser against them. The
productions know nothing of places: they put a content together from the texts of its parts.

* `Placeholder.Answered`: every parenthesis of a text is answered inside of it;
* `Placeholder.upToClosing_eq_some`: the scanner stops at the parenthesis that answers the first;
* `Placeholder.Says`: the grammar;
* `Placeholder.parse_iff`: the parser accepts the grammar and reads it back.
-/

namespace SqlTemplate

open Text (isBlank)

/-! ## 1. Blank texts -/

namespace Text

/-- A text that says nothing: it has no character that is not a blank. -/
def AllBlank (cs : List Char) : Prop := ∀ c ∈ cs, isBlank c = true

theorem trim_eq_nil_iff {cs : List Char} : trim cs = [] ↔ AllBlank cs := by
  unfold trim trimBy trimEndBy trimStartBy
  rw [List.reverse_eq_nil_iff, List.dropWhile_eq_nil_iff]
  constructor
  · intro h
    refine List.dropWhile_eq_nil_iff.mp ?_
    cases hd : cs.dropWhile isBlank with
    | nil => rfl
    | cons c rest =>
      have hc : isBlank c = true := h c (by rw [hd, List.mem_reverse]; exact List.mem_cons_self)
      have hn := List.head?_dropWhile_not isBlank cs
      rw [hd] at hn
      exact absurd hc (ne_true_of_eq_false hn)
  · intro h c hc
    exact h c ((List.dropWhile_sublist _).subset (List.mem_reverse.mp hc))

theorem isEmpty_trim_eq_true {cs : List Char} : (trim cs).isEmpty = true ↔ AllBlank cs := by
  rw [List.isEmpty_iff, trim_eq_nil_iff]

end Text

open Text (AllBlank)

namespace Placeholder

/-! ## 2. Parentheses -/

/-- Inside of `depth` open parentheses, a text answers them and all that it opens itself, and it
    closes none beyond. -/
structure Answered (depth : Nat) (cs : List Char) : Prop where
  never : ∀ xs, xs <+: cs → xs.count ')' ≤ depth + xs.count '('
  whole : cs.count ')' = depth + cs.count '('

theorem answered_nil {depth : Nat} : Answered depth [] ↔ depth = 0 := by
  constructor
  · intro h
    exact h.whole.symm
  · rintro rfl
    refine ⟨fun xs hxs => ?_, rfl⟩
    rw [List.prefix_nil.mp hxs]
    exact Nat.zero_le _

/-- A character changes the number of open parentheses, and what follows it answers those. -/
theorem answered_cons {depth next : Nat} {c : Char} {cs : List Char}
    (h : depth + [c].count '(' = next + [c].count ')') :
    Answered depth (c :: cs) ↔ Answered next cs := by
  have hcount (d : Char) (xs : List Char) : (c :: xs).count d = [c].count d + xs.count d :=
    @List.count_append _ _ d [c] xs
  constructor
  · rintro ⟨hnever, hwhole⟩
    refine ⟨fun xs hxs => ?_, ?_⟩
    · have hx := hnever (c :: xs) (List.prefix_cons_inj c |>.mpr hxs)
      rw [hcount ')' xs, hcount '(' xs] at hx
      omega
    · rw [hcount ')' cs, hcount '(' cs] at hwhole
      omega
  · rintro ⟨hnever, hwhole⟩
    refine ⟨fun xs hxs => ?_, ?_⟩
    · rcases List.prefix_cons_iff.mp hxs with rfl | ⟨ys, rfl, hys⟩
      · exact Nat.zero_le _
      · have hy := hnever ys hys
        rw [hcount ')' ys, hcount '(' ys]
        omega
    · rw [hcount ')' cs, hcount '(' cs]
      omega

/-- Outside of all parentheses nothing is left to be closed. -/
theorem not_answered_close {cs : List Char} : ¬Answered 0 (')' :: cs) := by
  intro h
  have hx : [')'].count ')' ≤ 0 + [')'].count '(' := h.never [')'] ⟨cs, rfl⟩
  exact absurd hx (by decide)

/-- One step of the scanner. -/
theorem upToClosing_cons {depth next : Nat} {c : Char} {cs inner rest : List Char}
    (hstep : depth + [c].count '(' = next + [c].count ')') (hclose : c = ')' → depth ≠ 0)
    (heq : upToClosing depth (c :: cs) =
      (upToClosing next cs).map fun (inner, rest) => (c :: inner, rest))
    (ih : ∀ {inner}, upToClosing next cs = some (inner, rest) ↔
      cs = inner ++ ')' :: rest ∧ Answered next inner) :
    upToClosing depth (c :: cs) = some (inner, rest) ↔
      c :: cs = inner ++ ')' :: rest ∧ Answered depth inner := by
  rw [heq, Option.map_eq_some_iff]
  constructor
  · rintro ⟨⟨xs, ys⟩, hxs, hcons⟩
    cases hcons
    obtain ⟨hcs, ha⟩ := ih.mp hxs
    exact ⟨congrArg (c :: ·) hcs, (answered_cons hstep).mpr ha⟩
  · rintro ⟨hcs, ha⟩
    cases inner with
    | nil => exact absurd (answered_nil.mp ha) (hclose (List.cons.inj hcs).1)
    | cons d inner =>
      obtain ⟨rfl, htail⟩ := List.cons.inj hcs
      exact ⟨(inner, rest), ih.mpr ⟨htail, (answered_cons hstep).mp ha⟩, rfl⟩

/-- **The scanner stops at the parenthesis that answers the first one**: in front of it every
    parenthesis is answered. -/
theorem upToClosing_eq_some {depth : Nat} {cs inner rest : List Char} :
    upToClosing depth cs = some (inner, rest) ↔
      cs = inner ++ ')' :: rest ∧ Answered depth inner := by
  induction cs generalizing depth inner with
  | nil =>
    constructor
    · intro h
      cases h
    · rintro ⟨h, -⟩
      exact absurd h.symm (List.append_ne_nil_of_right_ne_nil _ (List.cons_ne_nil _ _))
  | cons c cs ih =>
    by_cases hc : c = ')'
    · subst hc
      cases depth with
      | zero =>
        constructor
        · intro h
          cases h
          exact ⟨rfl, answered_nil.mpr rfl⟩
        · rintro ⟨hcs, ha⟩
          cases inner with
          | nil =>
            obtain ⟨-, rfl⟩ := List.cons.inj hcs
            rfl
          | cons d inner =>
            obtain ⟨rfl, -⟩ := List.cons.inj hcs
            exact absurd ha not_answered_close
      | succ depth => exact upToClosing_cons rfl (fun _ => Nat.succ_ne_zero depth) rfl ih
    · have hclose : [c].count ')' = 0 := List.count_eq_zero.mpr fun h =>
        hc (List.mem_singleton.mp h).symm
      by_cases ho : c = '('
      · subst ho
        exact upToClosing_cons rfl (fun h => absurd h hc) rfl ih
      · have hopen : [c].count '(' = 0 := List.count_eq_zero.mpr fun h =>
          ho (List.mem_singleton.mp h).symm
        refine upToClosing_cons (by rw [hopen, hclose]) (fun h => absurd h hc) ?_ ih
        rw [upToClosing.eq_def]
        simp only [if_neg hc, if_neg ho]

/-! ## 3. The grammar -/

/-- A text that is skipped, in front of a target or behind a parenthesis. -/
def IsGap (cs : List Char) : Prop := ∀ c ∈ cs, isSkipped c = true

/-- The texts of targets. An expression stands in parentheses, up to the one that answers the
    first, and a gap may follow it. A property is any other text without comma and colon, and the
    blanks behind it are its own. -/
inductive Targets : List Char → Target → Prop
  | computed {inner gap : List Char} : Answered 0 inner → ¬AllBlank inner → IsGap gap →
      Targets ('(' :: (inner ++ ')' :: gap)) (.expression (trimmed inner))
  | property {c : Char} {cs : List Char} : isSkipped c = false → c ≠ '(' →
      (∀ d ∈ c :: cs, isTargetChar d = true) → ¬AllBlank (c :: cs) →
      Targets (c :: cs) (.property (trimmed (c :: cs)))

/-- The texts that declare a type, or leave it open. -/
inductive Types : List Char → Option String → Prop
  | missing : Types [] none
  | named {cs : List Char} : ',' ∉ cs → ¬AllBlank cs → Types (':' :: cs) (some (trimmed cs))

/-- The texts of option lists. A comma stands in front of every option. A blank option says nothing;
    in any other one the first equals sign parts the key from the value. -/
inductive Lists : List Char → List (String × String) → Prop
  | nil : Lists [] []
  | blank {cs rest : List Char} {options : List (String × String)} : AllBlank cs →
      Lists rest options → Lists (',' :: (cs ++ rest)) options
  | pair {key value rest : List Char} {options : List (String × String)} :
      ',' ∉ key → '=' ∉ key → ',' ∉ value → Lists rest options →
      Lists (',' :: (key ++ '=' :: value ++ rest)) ((trimmed key, trimmed value) :: options)

/-- **The grammar of contents**: a gap, a target, a type and a list of options. -/
inductive Says : List Char → Placeholder → Prop
  | content {lead target type options : List Char} {p : Placeholder} : IsGap lead →
      Targets target p.target → Types type p.jdbcType → Lists options p.options →
      Says (lead ++ (target ++ (type ++ options))) p

/-! ## 4. Options -/

theorem not_mem_of_allBlank {cs : List Char} {c : Char} (h : AllBlank cs)
    (hc : isBlank c = false) : c ∉ cs := fun hm => ne_true_of_eq_false hc (h c hm)

theorem splitAll_of_not_mem {sep : Char} {cs : List Char} (h : sep ∉ cs) :
    Text.splitAll sep cs = [cs] := by
  induction cs with
  | nil => rfl
  | cons c cs ih =>
    rw [List.mem_cons, not_or] at h
    rw [Text.splitAll, if_neg (Ne.symm h.1), ih h.2]

theorem splitAll_append {sep : Char} {part : List Char} (h : sep ∉ part) (cs : List Char) :
    Text.splitAll sep (part ++ sep :: cs) = part :: Text.splitAll sep cs := by
  induction part with
  | nil => exact if_pos rfl
  | cons c part ih =>
    rw [List.mem_cons, not_or] at h
    rw [List.cons_append, Text.splitAll, if_neg (Ne.symm h.1), ih h.2]

/-- Splitting a text at a separator is undone by putting the separator in front of every part. -/
theorem flatMap_splitAll (sep : Char) (cs : List Char) :
    (Text.splitAll sep cs).flatMap (sep :: ·) = sep :: cs := by
  induction cs with
  | nil => rfl
  | cons c cs ih =>
    by_cases hc : c = sep
    · rw [Text.splitAll, if_pos hc, List.flatMap_cons, ih, hc]
      rfl
    · rw [Text.splitAll, if_neg hc]
      cases hs : Text.splitAll sep cs with
      | nil =>
        rw [hs] at ih
        cases ih
      | cons part parts =>
        rw [hs, List.flatMap_cons, List.cons_append] at ih
        rw [List.flatMap_cons, List.cons_append, List.cons_append, (List.cons.inj ih).2]

theorem not_mem_splitAll {sep : Char} {cs part : List Char} (h : part ∈ Text.splitAll sep cs) :
    sep ∉ part := by
  induction cs generalizing part with
  | nil =>
    rw [List.mem_singleton.mp h]
    exact List.not_mem_nil
  | cons c cs ih =>
    by_cases hc : c = sep
    · rw [Text.splitAll, if_pos hc] at h
      rcases List.mem_cons.mp h with rfl | h
      · exact List.not_mem_nil
      · exact ih h
    · rw [Text.splitAll, if_neg hc] at h
      cases hs : Text.splitAll sep cs with
      | nil =>
        rw [hs] at h
        rw [List.mem_singleton.mp h, List.mem_singleton]
        exact Ne.symm hc
      | cons first parts =>
        rw [hs] at h ih
        rcases List.mem_cons.mp h with rfl | h
        · rw [List.mem_cons, not_or]
          exact ⟨Ne.symm hc, ih List.mem_cons_self⟩
        · exact ih (List.mem_cons_of_mem _ h)

/-- A pair is split at its first equals sign. -/
theorem splitOnce_equals {option key value : List Char} :
    Text.splitOnce ['='] option = some (key, value) ↔
      option = key ++ '=' :: value ∧ '=' ∉ key := by
  rw [splitOnce_eq_some (List.cons_ne_nil _ _)]
  have happ : key ++ ['='] ++ value = key ++ '=' :: value := List.append_assoc key ['='] value
  rw [happ]
  refine and_congr_right fun _ => ⟨fun hf hm => ?_, fun hm xs ys h => ?_⟩
  · obtain ⟨xs, ys, hxs⟩ := List.append_of_mem hm
    have hlen := hf xs (ys ++ ['='] ++ value) (by rw [hxs]; simp)
    rw [hxs, List.length_append, List.length_cons] at hlen
    omega
  · by_contra hlen
    have hpre : xs ++ ['='] <+: key := by
      have hkey : key <+: key ++ ['='] ++ value := ⟨['='] ++ value, (List.append_assoc _ _ _).symm⟩
      refine List.prefix_of_prefix_length_le ⟨ys, h⟩ hkey ?_
      rw [List.length_append, List.length_singleton]
      omega
    exact hm (hpre.subset (List.mem_append_right _ List.mem_cons_self))

/-- Parts with a separator in front of each are what splitting gets back. -/
theorem splitAll_of_flatMap {sep : Char} {parts : List (List Char)} {cs : List Char}
    (hp : ∀ part ∈ parts, sep ∉ part) (h : parts.flatMap (sep :: ·) = sep :: cs) :
    Text.splitAll sep cs = parts := by
  induction parts generalizing cs with
  | nil => cases h
  | cons part parts ih =>
    rw [List.flatMap_cons, List.cons_append] at h
    obtain ⟨-, rfl⟩ := List.cons.inj h
    have hpart : sep ∉ part := hp part List.mem_cons_self
    cases parts with
    | nil =>
      rw [List.flatMap_nil, List.append_nil]
      exact splitAll_of_not_mem hpart
    | cons next parts =>
      have htail : (next :: parts).flatMap (sep :: ·) =
          sep :: (next ++ parts.flatMap (sep :: ·)) := rfl
      rw [htail, splitAll_append hpart, ih (fun p hm => hp p (List.mem_cons_of_mem _ hm)) htail]

theorem readOptions_blank {part : List Char} (h : AllBlank part) (parts : List (List Char)) :
    readOptions (part :: parts) = readOptions parts :=
  if_pos (Text.isEmpty_trim_eq_true.mpr h)

theorem readOptions_pair {key value : List Char} (hk : '=' ∉ key) (parts : List (List Char)) :
    readOptions ((key ++ '=' :: value) :: parts) =
      (readOptions parts).map ((trimmed key, trimmed value) :: ·) := by
  have hshown : ¬AllBlank (key ++ '=' :: value) := fun h =>
    not_mem_of_allBlank h rfl (List.mem_append_right _ List.mem_cons_self)
  have hs : Text.splitOnce ['='] (key ++ '=' :: value) = some (key, value) :=
    splitOnce_equals.mpr ⟨rfl, hk⟩
  rw [readOptions, if_neg fun h => hshown (Text.isEmpty_trim_eq_true.mp h), hs]
  rfl

/-- An option that has been read is blank or a pair. -/
theorem readOptions_ok {part : List Char} {parts : List (List Char)}
    {options : List (String × String)} (h : readOptions (part :: parts) = .ok options) :
    (AllBlank part ∧ readOptions parts = .ok options) ∨
      ∃ key value others, part = key ++ '=' :: value ∧ '=' ∉ key ∧
        readOptions parts = .ok others ∧ options = (trimmed key, trimmed value) :: others := by
  by_cases hb : AllBlank part
  · rw [readOptions_blank hb] at h
    exact .inl ⟨hb, h⟩
  · cases hs : Text.splitOnce ['='] part with
    | none =>
      rw [readOptions, if_neg fun he => hb (Text.isEmpty_trim_eq_true.mp he), hs] at h
      cases h
    | some found =>
      obtain ⟨key, value⟩ := found
      obtain ⟨rfl, hk⟩ := splitOnce_equals.mp hs
      rw [readOptions_pair hk] at h
      cases hr : readOptions parts with
      | error reason =>
        rw [hr] at h
        cases h
      | ok others =>
        rw [hr] at h
        cases h
        exact .inr ⟨key, value, others, rfl, hk, rfl, rfl⟩

/-- Parts that are read stand for a list of the grammar. -/
theorem lists_of_readOptions {parts : List (List Char)} (hp : ∀ part ∈ parts, ',' ∉ part)
    {options : List (String × String)} (h : readOptions parts = .ok options) :
    Lists (parts.flatMap (',' :: ·)) options := by
  induction parts generalizing options with
  | nil =>
    cases h
    exact .nil
  | cons part parts ih =>
    have hrest : ∀ part ∈ parts, ',' ∉ part := fun p hm => hp p (List.mem_cons_of_mem _ hm)
    rw [List.flatMap_cons, List.cons_append]
    rcases readOptions_ok h with ⟨hb, hr⟩ | ⟨key, value, others, rfl, hk, hr, rfl⟩
    · exact .blank hb (ih hrest hr)
    · have hpart : ',' ∉ key ++ '=' :: value := hp _ List.mem_cons_self
      rw [List.mem_append, List.mem_cons, not_or, not_or] at hpart
      exact .pair hpart.1 hk hpart.2.2 (ih hrest hr)

/-- A list of the grammar has parts that are read. -/
theorem readOptions_of_lists {cs : List Char} {options : List (String × String)}
    (h : Lists cs options) : ∃ parts, (∀ part ∈ parts, ',' ∉ part) ∧
      cs = parts.flatMap (',' :: ·) ∧ readOptions parts = .ok options := by
  induction h with
  | nil => exact ⟨[], fun _ hm => absurd hm List.not_mem_nil, rfl, rfl⟩
  | @blank part rest options hb _ ih =>
    obtain ⟨parts, hp, rfl, hr⟩ := ih
    exact ⟨part :: parts, List.forall_mem_cons.mpr ⟨not_mem_of_allBlank hb rfl, hp⟩, rfl,
      (readOptions_blank hb parts).trans hr⟩
  | @pair key value rest options hkey hk hvalue _ ih =>
    obtain ⟨parts, hp, rfl, hr⟩ := ih
    have hpart : ',' ∉ key ++ '=' :: value := by
      rw [List.mem_append, List.mem_cons, not_or, not_or]
      exact ⟨hkey, by decide, hvalue⟩
    refine ⟨(key ++ '=' :: value) :: parts, List.forall_mem_cons.mpr ⟨hpart, hp⟩, rfl, ?_⟩
    rw [readOptions_pair hk, hr]
    rfl

/-- The text of the options behind a target: a comma in front of them, or nothing. -/
def optionsText : Option (List Char) → List Char
  | none => []
  | some raw => ',' :: raw

/-- **Options are read as the list that they stand for.** -/
theorem lists_iff {cs : List Char} {options : List (String × String)} :
    Lists cs options ↔ ∃ raw, cs = optionsText raw ∧ optionsOf raw = .ok options := by
  constructor
  · intro h
    obtain ⟨parts, hp, rfl, hr⟩ := readOptions_of_lists h
    cases parts with
    | nil => exact ⟨none, rfl, hr⟩
    | cons part parts =>
      have hs : Text.splitAll ',' (part ++ parts.flatMap (',' :: ·)) = part :: parts :=
        splitAll_of_flatMap hp rfl
      refine ⟨some (part ++ parts.flatMap (',' :: ·)), rfl, ?_⟩
      rw [optionsOf, hs, hr]
  · rintro ⟨raw, rfl, hr⟩
    cases raw with
    | none =>
      cases hr
      exact .nil
    | some raw =>
      have hl := lists_of_readOptions (fun _ => not_mem_splitAll) hr
      rw [flatMap_splitAll] at hl
      exact hl

/-! ## 5. Targets and types -/

/-- A target in parentheses, and the place behind it. -/
theorem outlineTarget_open {cs inner rest : List Char} (h : upToClosing 0 cs = some (inner, rest))
    (o : Nat) : outlineTarget ⟨o, '(' :: cs⟩ =
      .ok (true, ⟨o + 1, o + 1 + Text.utf8Size inner, inner⟩,
        ⟨o + 1 + Text.utf8Size inner + 1, rest⟩) := by
  unfold outlineTarget
  simp only [h]

theorem outlineTarget_unbalanced {cs : List Char} (h : upToClosing 0 cs = none) (o : Nat) :
    outlineTarget ⟨o, '(' :: cs⟩ = .error .unbalanced := by
  unfold outlineTarget
  simp only [h]

/-- A target that has been found: an expression with its closing parenthesis, or everything up to
    the next comma or colon. -/
theorem outlineTarget_ok {o : Nat} {cs : List Char} {computed : Bool} {part : Text.Part}
    {next : Text.Cursor} (h : outlineTarget ⟨o, cs⟩ = .ok (computed, part, next)) :
    (computed = true ∧ cs = '(' :: (part.raw ++ ')' :: next.rest) ∧ Answered 0 part.raw) ∨
      (computed = false ∧ cs.head? ≠ some '(' ∧ part.raw = cs.takeWhile isTargetChar ∧
        next.rest = cs.dropWhile isTargetChar) := by
  by_cases hh : cs.head? = some '('
  · obtain ⟨cs, rfl⟩ := List.head?_eq_some_iff.mp hh
    cases hu : upToClosing 0 cs with
    | none =>
      rw [outlineTarget_unbalanced hu] at h
      cases h
    | some found =>
      obtain ⟨inner, rest⟩ := found
      rw [outlineTarget_open hu] at h
      cases h
      obtain ⟨rfl, ha⟩ := upToClosing_eq_some.mp hu
      exact .inl ⟨rfl, rfl, ha⟩
  · obtain ⟨part', stop, ht, hraw⟩ := outlineTarget_path o hh
    rw [ht] at h
    cases h
    exact .inr ⟨rfl, hh, hraw, rfl⟩

theorem outlineTarget_computed {inner : List Char} (h : Answered 0 inner) (o : Nat)
    (rest : List Char) : ∃ part next,
      outlineTarget ⟨o, '(' :: (inner ++ ')' :: rest)⟩ = .ok (true, part, next) ∧
        part.raw = inner ∧ next.rest = rest := by
  have hu : upToClosing 0 (inner ++ ')' :: rest) = some (inner, rest) :=
    upToClosing_eq_some.mpr ⟨rfl, h⟩
  exact ⟨_, _, outlineTarget_open hu o, rfl, rfl⟩

/-- Behind a colon there is what stands in front of the first comma, and the options. -/
theorem exists_optionsText (cs : List Char) : ∃ type raw, cs = type ++ optionsText raw ∧ ',' ∉ type := by
  by_cases h : ',' ∈ cs
  · obtain ⟨type, raw, rfl, hn⟩ := List.eq_append_cons_of_mem h
    exact ⟨type, some raw, rfl, hn⟩
  · exact ⟨cs, none, (List.append_nil cs).symm, h⟩

/-- A type goes on to the comma in front of the options. -/
theorem takeWhile_type {type : List Char} (h : ',' ∉ type) (raw : Option (List Char)) :
    (type ++ optionsText raw).takeWhile (· != ',') = type ∧
      (type ++ optionsText raw).dropWhile (· != ',') = optionsText raw := by
  have htype : ∀ c ∈ type, (c != ',') = true := fun c hc =>
    bne_iff_ne.mpr fun e => h (e ▸ hc)
  have hstop : ∀ c, (optionsText raw).head? = some c → (c != ',') = false := by
    intro c hc
    cases raw with
    | none => cases hc
    | some raw =>
      cases hc
      rfl
  exact ⟨takeWhile_stop htype hstop, dropWhile_stop htype hstop⟩

/-- Behind a colon a type must be declared. -/
theorem outlineRest_colon {type : List Char} (h : ',' ∉ type) (raw : Option (List Char)) (o : Nat) :
    (AllBlank type →
        outlineRest ⟨o, ':' :: (type ++ optionsText raw)⟩ = .error (.missingType (o + 1))) ∧
      (¬AllBlank type → ∃ part options,
        outlineRest ⟨o, ':' :: (type ++ optionsText raw)⟩ = .ok (some part, options) ∧
          part.raw = type ∧ options.map Text.Part.raw = raw) := by
  obtain ⟨htake, hdrop⟩ := takeWhile_type h raw
  have hblank : (Text.trim ((type ++ optionsText raw).takeWhile (· != ','))).isEmpty = true ↔
      AllBlank type := by rw [htake, Text.isEmpty_trim_eq_true]
  unfold outlineRest Text.Cursor.takeWhile
  simp only [hdrop]
  refine ⟨fun hb => if_pos (hblank.mpr hb), fun hb => ?_⟩
  rw [if_neg fun he => hb (hblank.mp he)]
  cases raw with
  | none => exact ⟨_, _, rfl, htake, rfl⟩
  | some raw => exact ⟨_, _, rfl, htake, rfl⟩

/-- Behind a target there is nothing else than a colon or a comma. -/
theorem outlineRest_unexpected {c : Char} (hcolon : c ≠ ':') (hcomma : c ≠ ',') (o : Nat)
    (cs : List Char) : outlineRest ⟨o, c :: cs⟩ = .error (.unexpected o) := by
  unfold outlineRest
  simp only
  split
  · rename_i hs
    cases hs
  · rename_i hs
    exact absurd (List.cons.inj hs).1 hcolon
  · rename_i hs
    exact absurd (List.cons.inj hs).1 hcomma
  · rfl

/-- What has been found behind a target is a type, if there is a colon, and options, if there is a
    comma. -/
theorem outlineRest_ok {o : Nat} {cs : List Char} {jdbcType options : Option Text.Part}
    (h : outlineRest ⟨o, cs⟩ = .ok (jdbcType, options)) :
    ∃ type, cs = type ++ optionsText (options.map Text.Part.raw) ∧
      Types type ((jdbcType.map Text.Part.raw).map trimmed) := by
  cases cs with
  | nil =>
    cases h
    exact ⟨[], rfl, .missing⟩
  | cons c cs =>
    by_cases hcolon : c = ':'
    · subst hcolon
      obtain ⟨type, raw, rfl, hn⟩ := exists_optionsText cs
      obtain ⟨hblank, hshown⟩ := outlineRest_colon hn raw o
      by_cases hb : AllBlank type
      · rw [hblank hb] at h
        cases h
      · obtain ⟨part, found, hf, rfl, rfl⟩ := hshown hb
        rw [hf] at h
        cases h
        exact ⟨':' :: part.raw, rfl, .named hn hb⟩
    · by_cases hcomma : c = ','
      · subst hcomma
        cases h
        exact ⟨[], rfl, .missing⟩
      · rw [outlineRest_unexpected hcolon hcomma] at h
        cases h

/-- A type and options are found behind a target. -/
theorem outlineRest_types {type : List Char} {jdbcType : Option String} (h : Types type jdbcType)
    (raw : Option (List Char)) (o : Nat) : ∃ found options,
      outlineRest ⟨o, type ++ optionsText raw⟩ = .ok (found, options) ∧
        (found.map Text.Part.raw).map trimmed = jdbcType ∧ options.map Text.Part.raw = raw := by
  cases h with
  | missing =>
    cases raw with
    | none => exact ⟨none, none, rfl, rfl, rfl⟩
    | some raw => exact ⟨none, _, rfl, rfl, rfl⟩
  | named hn hb =>
    obtain ⟨part, options, hf, rfl, hraw⟩ := (outlineRest_colon hn raw o).2 hb
    exact ⟨some part, options, hf, rfl, hraw⟩

/-! ## 6. Contents -/

/-- The place of the target: behind the gap that a content starts with. -/
def start (content : List Char) : Text.Cursor :=
  (Text.Cursor.ofText content).skipWhile isSkipped

/-- The parts of a content: a target that says something, and what is found behind the gap that
    follows it. -/
theorem outline_ok {content : List Char} {parts : Outline} :
    outline content = .ok parts ↔ ∃ next,
      outlineTarget (start content) = .ok (parts.computed, parts.target, next) ∧
        ¬AllBlank parts.target.raw ∧
        outlineRest (next.skipWhile isSkipped) = .ok (parts.jdbcType, parts.options) := by
  unfold outline
  show (outlineTarget (start content)).bind _ = _ ↔ _
  cases ht : outlineTarget (start content) with
  | error reason =>
    constructor
    · intro h
      cases h
    · rintro ⟨next, h, -⟩
      cases h
  | ok found =>
    obtain ⟨computed, target, next⟩ := found
    by_cases hb : AllBlank target.raw
    · simp only [Except.bind, Text.isEmpty_trim_eq_true.mpr hb, ↓reduceIte]
      constructor
      · intro h
        cases h
      · rintro ⟨_, h, hn, -⟩
        cases h
        exact absurd hb hn
    · have hn : ¬(Text.trim target.raw).isEmpty = true := fun h =>
        hb (Text.isEmpty_trim_eq_true.mp h)
      simp only [Except.bind, hn, bind, pure, Except.pure]
      cases hr : outlineRest (next.skipWhile isSkipped) with
      | error reason =>
        constructor
        · intro h
          cases h
        · rintro ⟨_, h, -, hr'⟩
          cases h
          rw [hr] at hr'
          cases hr'
      | ok rest =>
        obtain ⟨jdbcType, options⟩ := rest
        constructor
        · intro h
          cases h
          exact ⟨next, rfl, hb, hr⟩
        · rintro ⟨_, h, -, hr'⟩
          obtain ⟨c, t, j, os⟩ := parts
          cases h
          rw [hr] at hr'
          cases hr'
          rfl

theorem gap_append_start (content : List Char) :
    content.takeWhile isSkipped ++ (start content).rest = content :=
  List.takeWhile_append_dropWhile

theorem head?_start {content : List Char} {c : Char} (h : (start content).rest.head? = some c) :
    isSkipped c = false := by
  have hn := List.head?_dropWhile_not isSkipped content
  have hd : content.dropWhile isSkipped = (start content).rest := rfl
  rw [hd, h] at hn
  exact hn

/-- What cannot belong to a target is not skipped. -/
theorem isSkipped_of_not_target {c : Char} (h : isTargetChar c = false) : isSkipped c = false := by
  unfold isTargetChar at h
  rcases Bool.and_eq_false_iff.mp h with h | h
  · rw [bne_eq_false_iff_eq.mp h]
    rfl
  · rw [bne_eq_false_iff_eq.mp h]
    rfl

/-- What a target asks for. -/
def targetOf (computed : Bool) (raw : List Char) : Target :=
  if computed then .expression (trimmed raw) else .property (trimmed raw)

/-- A target that has been found, and that says something, is one of the grammar. -/
theorem targets_of_found {o : Nat} {cs : List Char} {computed : Bool} {part : Text.Part}
    {next : Text.Cursor} (hcs : ∀ c, cs.head? = some c → isSkipped c = false)
    (h : outlineTarget ⟨o, cs⟩ = .ok (computed, part, next)) (hshown : ¬AllBlank part.raw) :
    ∃ target, cs = target ++ next.rest.dropWhile isSkipped ∧
      Targets target (targetOf computed part.raw) := by
  rcases outlineTarget_ok h with ⟨rfl, rfl, ha⟩ | ⟨rfl, hh, hraw, hnext⟩
  · refine ⟨'(' :: (part.raw ++ ')' :: next.rest.takeWhile isSkipped), ?_,
      .computed ha hshown fun _ => List.mem_takeWhile_imp⟩
    simp only [List.cons_append, List.append_assoc, List.takeWhile_append_dropWhile]
  · have hstop : next.rest.dropWhile isSkipped = next.rest := by
      refine dropWhile_at_stop fun c hd => isSkipped_of_not_target ?_
      have hn := List.head?_dropWhile_not isTargetChar cs
      rw [← hnext, hd] at hn
      exact hn
    have hsplit : cs = part.raw ++ next.rest := by
      rw [hraw, hnext, List.takeWhile_append_dropWhile]
    have htarget : ∀ d ∈ part.raw, isTargetChar d = true := by
      rw [hraw]
      exact fun _ => List.mem_takeWhile_imp
    rw [hstop]
    refine ⟨part.raw, hsplit, ?_⟩
    cases hp : part.raw with
    | nil =>
      rw [hp] at hshown
      exact absurd (fun _ hm => absurd hm List.not_mem_nil) hshown
    | cons c rest =>
      rw [hp] at hsplit hshown htarget
      have hhead : cs.head? = some c := by rw [hsplit]; rfl
      exact .property (hcs c hhead) (fun e => hh (e ▸ hhead)) htarget hshown

/-- A content that has been read is one of the grammar. -/
theorem says_of_parse {content : List Char} {p : Placeholder} (h : parse content = .ok p) :
    Says content p := by
  cases ho : outline content with
  | error reason =>
    rw [parse_of_refused ho] at h
    cases h
  | ok parts =>
    rw [parse_of_outline ho] at h
    obtain ⟨next, ht, hshown, hr⟩ := outline_ok.mp ho
    cases hopt : optionsOf (parts.options.map Text.Part.raw) with
    | error reason =>
      rw [hopt] at h
      cases h
    | ok options =>
      rw [hopt] at h
      cases h
      obtain ⟨type, hrest, htype⟩ := outlineRest_ok hr
      obtain ⟨target, hsplit, htarget⟩ := targets_of_found (fun _ => head?_start) ht hshown
      have hlead : IsGap (content.takeWhile isSkipped) := fun _ => List.mem_takeWhile_imp
      have hcontent : content = content.takeWhile isSkipped ++ (target ++
          (type ++ optionsText (parts.options.map Text.Part.raw))) := by
        rw [← hrest, ← hsplit]
        exact (gap_append_start content).symm
      rw [hcontent]
      exact .content hlead htarget htype (lists_iff.mpr ⟨_, rfl, hopt⟩)

/-- Behind a target there is a colon, a comma or nothing. -/
theorem not_target_of_rest {type options : List Char} {jdbcType : Option String}
    {pairs : List (String × String)} (ht : Types type jdbcType) (hl : Lists options pairs) {c : Char}
    (h : (type ++ options).head? = some c) : isTargetChar c = false := by
  cases ht with
  | missing =>
    cases hl with
    | nil => cases h
    | blank _ _ =>
      cases h
      rfl
    | pair _ _ _ _ =>
      cases h
      rfl
  | named _ _ =>
    cases h
    rfl

/-- A target of the grammar is found where it stands. -/
theorem Targets.found {lead target rest : List Char} {t : Target} (ht : Targets target t)
    (hlead : IsGap lead) (hrest : ∀ c, rest.head? = some c → isTargetChar c = false) :
    ∃ computed part next, outlineTarget (start (lead ++ (target ++ rest))) =
        .ok (computed, part, next) ∧ ¬AllBlank part.raw ∧ next.rest.dropWhile isSkipped = rest ∧
      targetOf computed part.raw = t := by
  have hskip : rest.dropWhile isSkipped = rest :=
    dropWhile_at_stop fun c hc => isSkipped_of_not_target (hrest c hc)
  have hstart {cs : List Char} (h : ∀ c, cs.head? = some c → isSkipped c = false) :
      start (lead ++ cs) = ⟨(start (lead ++ cs)).offset, cs⟩ := by
    have hd : (lead ++ cs).dropWhile isSkipped = cs := dropWhile_stop hlead h
    show (⟨_, (lead ++ cs).dropWhile isSkipped⟩ : Text.Cursor) = _
    rw [hd]
    rfl
  cases ht with
  | @computed inner gap ha hb hg =>
    have hcs : ('(' :: (inner ++ ')' :: gap)) ++ rest = '(' :: (inner ++ ')' :: (gap ++ rest)) := by
      simp only [List.cons_append, List.append_assoc]
    rw [hcs, hstart fun c hc => by cases hc; rfl]
    obtain ⟨part, next, hfound, rfl, hnext⟩ := outlineTarget_computed ha
      (start (lead ++ '(' :: (inner ++ ')' :: (gap ++ rest)))).offset (gap ++ rest)
    refine ⟨true, part, next, hfound, hb, ?_, rfl⟩
    rw [hnext]
    exact dropWhile_stop hg fun c hc => isSkipped_of_not_target (hrest c hc)
  | @property c cs hs hp hc hb =>
    rw [hstart fun d hd => by cases hd; exact hs]
    have hhead : (c :: cs ++ rest).head? ≠ some '(' := fun h => hp (Option.some.inj h)
    obtain ⟨part, stop, hfound, hraw⟩ := outlineTarget_path
      (start (lead ++ (c :: cs ++ rest))).offset hhead
    have hraw : part.raw = c :: cs := hraw.trans (takeWhile_stop hc hrest)
    have hnext : (c :: cs ++ rest).dropWhile isTargetChar = rest := dropWhile_stop hc hrest
    refine ⟨false, part, ⟨stop, (c :: cs ++ rest).dropWhile isTargetChar⟩, hfound, ?_, ?_, ?_⟩
    · rw [hraw]
      exact hb
    · rw [hnext, hskip]
    · rw [hraw]
      rfl

/-- A content of the grammar is read. -/
theorem Says.parse {content : List Char} {p : Placeholder} (h : Says content p) :
    Placeholder.parse content = .ok p := by
  cases h with
  | @content lead target type options _ hlead ht htype hl =>
    obtain ⟨raw, rfl, hopt⟩ := lists_iff.mp hl
    obtain ⟨computed, part, next, hfound, hshown, hnext, htarget⟩ :=
      ht.found hlead fun c hc => not_target_of_rest htype hl hc
    obtain ⟨jdbcType, found, hr, hj, hraw⟩ := outlineRest_types htype raw
      (next.skipWhile isSkipped).offset
    have ho : outline (lead ++ (target ++ (type ++ optionsText raw))) =
        .ok ⟨computed, part, jdbcType, found⟩ := by
      refine outline_ok.mpr ⟨next, hfound, hshown, ?_⟩
      rw [← hr, ← hnext]
      rfl
    rw [parse_of_outline ho, hraw, hopt, hj]
    exact congrArg (fun t => Except.ok (Placeholder.mk t _ _)) htarget

/-- **The parser accepts its grammar and reads it back.** -/
theorem parse_iff {content : List Char} {p : Placeholder} : parse content = .ok p ↔ Says content p :=
  ⟨says_of_parse, Says.parse⟩

/-- A content says one thing. -/
theorem Says.unique {content : List Char} {p q : Placeholder} (hp : Says content p)
    (hq : Says content q) : p = q :=
  Except.ok.inj (hp.parse.symm.trans hq.parse)

end Placeholder

end SqlTemplate
