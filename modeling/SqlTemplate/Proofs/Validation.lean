import SqlTemplate.Proofs.CommonDialect
import SqlTemplate.Proofs.PatternMeaning
import SqlTemplate.Proofs.Turns

/-!
# Validation of substitutions

What a literal with a pattern lets through. The texts of its substitutions have to match the pattern
in full, and the first one that does not is named in the failure.

The pattern is anchored as a text, by what is written in front of it and behind it. That means what
it is meant to mean when the pattern is well-formed by itself and does not end in a comment, which
would take in what is written behind it. A pattern that is not well-formed can close the group that
it is put into and open one of its own.

* `Compiler.Follows`: an engine of regular expressions that keeps to a dialect;
* `Dialect.denotes_anchored`: what the anchored form of a well-formed pattern denotes;
* `Dialect.exists_denotes_anchored`: the patterns whose anchored form is well-formed;
* `Check.compile_matches`: the check of a well-formed pattern accepts what the pattern matches;
* `Literal.Passes`, `Literal.Refuses`: what becomes of a content whose text has to match;
* `Literal.Validates`: a literal that succeeds and fails by what matches in full;
* `Literal.validation_full_match`: literals with a well-formed pattern do, whatever the engine, and
  which patterns are taken for well-formed ones or refused in spite of it.
-/

namespace SqlTemplate

/-! ## 1. Engines -/

namespace Pattern

variable {Flags Names Atom : Type}

/-- An engine that knows the patterns of a dialect and searches texts by what they mean. -/
structure Compiler.Follows (compiler : Compiler) (d : Dialect Flags Names Atom) : Prop where
  /-- Exactly the well-formed patterns compile. -/
  compiles (pattern : List Char) :
    (∃ search, compiler.compile? pattern = some search) ↔ ∃ r, d.Denotes pattern r
  /-- A search tells whether some part of the text matches. -/
  searches {pattern search r} : compiler.compile? pattern = some search → d.Denotes pattern r →
    ∀ text, search text = true ↔ r.Occurs d.Spans text

theorem Compiler.common_compile? (pattern : List Char) :
    common.compile? pattern = (Dialect.common.parse? pattern).map Regex.isMatch := rfl

/-- The engine of the common dialect is one. -/
theorem Compiler.common_follows : Compiler.common.Follows Dialect.common where
  compiles pattern := by
    simp only [← Dialect.parse?_eq_some Dialect.common_lawful, common_compile?,
      Option.map_eq_some_iff]
    constructor
    · rintro ⟨_, r, hr, -⟩
      exact ⟨r, hr⟩
    · rintro ⟨r, hr⟩
      exact ⟨_, r, hr, rfl⟩
  searches {pattern search r} h hr text := by
    rw [common_compile?, (Dialect.parse?_eq_some Dialect.common_lawful).mpr hr] at h
    cases h
    exact Regex.isMatch_iff r text

/-! ## 2. Anchored patterns -/

namespace Dialect

variable {d : Dialect Flags Names Atom} {pattern : String} {r : Regex Atom}

/-- What stands in front of the group that a pattern is put into. -/
def wrapper (d : Dialect Flags Names Atom) : Frame Flags Atom :=
  { flags := d.flags, parts := [some (.atom d.caret)] }

/-- An expression between anchors. -/
def between (d : Dialect Flags Names Atom) (r : Regex Atom) : Regex Atom :=
  .both (.atom d.caret) (.both r (.atom d.dollar))

/-- Whether a pattern ends the group that it is put into, behind an expression, and what is left of
    it goes on well-formed up to the end of the anchored form. -/
def EndsGroup (d : Dialect Flags Names Atom) (pattern : List Char) : Prop :=
  ∃ front rest q names r, pattern = front ++ ')' :: rest ∧ d.Reads d.start front q [] ∧
    q.outer = [] ∧
    d.Step (q.inside d.wrapper []) (')' :: (rest ++ [')', '$'])) (q.leave names d.wrapper [])
      (rest ++ [')', '$']) ∧
    d.Completes (q.leave names d.wrapper []) (rest ++ [')', '$']) r

/-- An expression between anchors occurs where it matches in full. -/
theorem occurs_between (hd : d.Lawful) (r : Regex Atom) (text : List Char) :
    (d.between r).Occurs d.Spans text ↔ r.Matches d.Spans text := by
  constructor
  · rintro ⟨i, j, -, k, hstart, l, hr, hstop⟩
    obtain ⟨rfl, rfl⟩ := hd.start.mp hstart
    obtain ⟨rfl, rfl⟩ := hd.stop.mp hstop
    exact hr
  · intro h
    exact ⟨0, text.length, Nat.zero_le _, 0, hd.start.mpr ⟨rfl, rfl⟩, text.length, h,
      hd.stop.mpr ⟨rfl, rfl⟩⟩

/-- The anchored form of a pattern begins a group behind the start of the text. -/
theorem Lawful.reads_anchored (hd : d.Lawful) (pattern : String) :
    d.Reads d.start (Check.anchored pattern) (d.start.inside d.wrapper [])
      (pattern.toList ++ [')', '$']) := by
  unfold Check.anchored
  rw [List.append_assoc]
  exact .step ⟨_, _, hd.caret _, rfl⟩ (.step ⟨_, _, hd.group _, rfl⟩ .refl)

/-- **The anchored form of a well-formed pattern denotes the pattern between anchors.** -/
theorem denotes_anchored (hd : d.Lawful) (h : d.Denotes pattern.toList r)
    (hcomment : ¬d.EndsInComment pattern.toList) :
    d.Denotes (Check.anchored pattern) (d.between r) := by
  obtain ⟨q, rest, hreads, hend, houter, rfl⟩ := h
  obtain rfl : rest = [] := hend.resolve_right fun hc => hcomment ⟨q, rest, hreads, hc, houter⟩
  obtain ⟨names, hclosing⟩ := hd.step_closing houter d.wrapper [] ['$']
  obtain ⟨names', hdollar⟩ := hd.dollar names
  have hgroup := hreads.inside hd d.wrapper [] ['$']
  refine (hd.completes_iff (hd.reads_anchored pattern)).mpr ((hd.completes_iff hgroup).mpr ?_)
  exact ⟨_, [], .step hclosing (.step ⟨_, _, hdollar, rfl⟩ .refl), .inl rfl, rfl, rfl⟩

/-- **The anchored form of a pattern that ends in a comment is not well-formed**: the comment takes
    in the parenthesis that is to close the group. -/
theorem EndsInComment.not_denotes_anchored (hd : d.Lawful)
    (h : d.EndsInComment pattern.toList) : ¬d.Denotes (Check.anchored pattern) r := by
  obtain ⟨q, rest, hreads, ⟨names, hcomment⟩, -⟩ := h
  obtain ⟨names', hopen⟩ := (hd.comment hcomment).2 [')', '$'] (by decide)
  have hgroup := hreads.inside hd d.wrapper [] ['$']
  have hend : d.InComment (q.inside d.wrapper []) (rest ++ [')', '$']) := ⟨names', hopen⟩
  unfold Denotes
  rw [hd.completes_iff (hd.reads_anchored pattern), hd.completes_iff hgroup,
    hd.completes_end (.inr hend)]
  rintro ⟨houter, -⟩
  exact List.cons_ne_nil _ _ (List.append_eq_nil_iff.mp houter).2

/-- A closing parenthesis of the anchored form is the one behind the pattern or one of its own. -/
theorem front_of_closing {cs front rest : List Char}
    (h : cs ++ [')', '$'] = front ++ ')' :: rest) :
    cs = front ∨ ∃ more, cs = front ++ ')' :: more ∧ rest = more ++ [')', '$'] := by
  rcases List.append_eq_append_iff.mp h with ⟨more, rfl, hmore⟩ | ⟨more, rfl, hmore⟩
  · match more with
    | [] => exact .inl (List.append_nil cs).symm
    | [c] => exact absurd (List.cons.inj (List.cons.inj hmore).2).1 (by decide)
    | c :: d :: more => exact absurd (List.cons.inj (List.cons.inj hmore).2).2 (by simp)
  · match more with
    | [] => exact .inl (List.append_nil front)
    | c :: more =>
      obtain ⟨rfl, rfl⟩ := List.cons.inj hmore
      exact .inr ⟨more, rfl, rfl⟩

/-- **The anchored form is well-formed for two kinds of patterns**: those that are and do not end in
    a comment, and those that end the group that they are put into. -/
theorem exists_denotes_anchored (hd : d.Lawful) (pattern : String) :
    (∃ r, d.Denotes (Check.anchored pattern) r) ↔
      (∃ r, d.Denotes pattern.toList r ∧ ¬d.EndsInComment pattern.toList) ∨
        d.EndsGroup pattern.toList := by
  constructor
  · rintro ⟨r, h⟩
    have hcomment : ¬d.EndsInComment pattern.toList := fun hc => hc.not_denotes_anchored hd h
    obtain ⟨front, q, names, rest, htext, hfront, houter, hstep, hrest⟩ :=
      ((hd.completes_iff (hd.reads_anchored pattern)).mp h).split hd
    rcases front_of_closing htext with rfl | ⟨more, hpattern, rfl⟩
    · exact .inl ⟨_, ⟨q, [], hfront, .inl rfl, houter, rfl⟩, hcomment⟩
    · exact .inr ⟨front, more, q, names, r, hpattern, hfront, houter, hstep, hrest⟩
  · rintro (⟨r, h, hcomment⟩ | ⟨front, rest, q, names, r, hpattern, hfront, houter, hstep, hrest⟩)
    · exact ⟨_, denotes_anchored hd h hcomment⟩
    · refine ⟨r, (hd.completes_iff (hd.reads_anchored pattern)).mpr ?_⟩
      have hgroup := hfront.inside hd d.wrapper [] (rest ++ [')', '$'])
      rw [hpattern, List.append_assoc, List.cons_append]
      exact (hd.completes_iff hgroup).mpr ((hd.completes_iff (.step hstep .refl)).mpr hrest)

/-- A pattern with a comment at its end. -/
theorem endsInComment_verbose : common.EndsInComment "(?x)a # c".toList := by
  let inside : Common.Flags := { verbose := true }
  let letter : Common.Atom := .one false (.single 'a')
  have hflags : common.Step common.start "(?x)a # c".toList
      { names := [], group := { flags := inside, parts := [none] } } "a # c".toList :=
    ⟨.flags inside, [], by decide +kernel, rfl⟩
  have hletter : common.Step { names := [], group := { flags := inside, parts := [none] } }
      "a # c".toList
      { names := [], group := { flags := inside, parts := [some (.atom letter), none] } }
      " # c".toList :=
    ⟨.atom letter, [], by decide +kernel, rfl⟩
  exact ⟨_, _, .step hflags (.step hletter .refl), ⟨[], by decide +kernel⟩, rfl⟩

/-- A pattern that ends the group behind its first letter and opens one of its own. -/
theorem endsGroup_unbalanced : common.EndsGroup "a)|(b".toList := by
  let letter : Common.Atom := .one false (.single 'a')
  let q : Reading Common.Flags (List (List Char)) Common.Atom :=
    { names := [], group := { flags := {}, parts := [some (.atom letter)] } }
  have hfront : common.Step common.start ['a'] q [] :=
    ⟨.atom letter, [], by decide +kernel, rfl⟩
  have hclosing : common.Step (q.inside common.wrapper []) ")|(b)$".toList
      (q.leave [] common.wrapper []) "|(b)$".toList :=
    ⟨.closing, [], by decide +kernel, rfl⟩
  have hread : (common.readFrom? 5 (q.leave [] common.wrapper [])
      "|(b)$".toList).isSome = true := by decide +kernel
  obtain ⟨r, hr⟩ := Option.isSome_iff_exists.mp hread
  exact ⟨['a'], "|(b".toList, q, [], r, rfl, .step hfront .refl, rfl, hclosing,
    (readFrom?_eq_some common_lawful (by decide)).mp hr⟩

theorem not_denotes_unbalanced : ¬∃ r, common.Denotes "a)|(b".toList r := by
  rw [exists_denotes_iff common_lawful]
  decide +kernel

end Dialect

end Pattern

open Pattern

/-! ## 3. Checks -/

namespace Check

variable {Flags Names Atom : Type} {d : Dialect Flags Names Atom} {compiler : Compiler}
  {pattern : String} {search : List Char → Bool} {r : Regex Atom}

theorem compile_ok (h : compiler.compile? (anchored pattern) = some search) :
    ∃ check, compile pattern compiler = .ok check ∧ check.pattern = pattern ∧
      check.search = search := by
  unfold compile
  split
  · rename_i found hfound
    exact ⟨_, rfl, rfl, Option.some.inj (hfound.symm.trans h)⟩
  · rename_i hnone
    cases hnone.symm.trans h

/-- A pattern is refused when its anchored form is not well-formed. -/
theorem compile_error_iff (hcompiler : compiler.Follows d) :
    compile pattern compiler = .error ⟨pattern⟩ ↔ ¬∃ r, d.Denotes (anchored pattern) r := by
  rw [← hcompiler.compiles]
  constructor
  · rintro h ⟨search, hsearch⟩
    obtain ⟨check, hcheck, -⟩ := compile_ok hsearch
    cases h.symm.trans hcheck
  · intro h
    unfold compile
    split
    · rename_i found hfound
      exact absurd ⟨found, hfound⟩ h
    · rfl

/-- **The check of a well-formed pattern accepts the texts that the pattern matches in full.** -/
theorem compile_matches (hd : d.Lawful) (hcompiler : compiler.Follows d)
    (h : d.Denotes pattern.toList r) (hcomment : ¬d.EndsInComment pattern.toList) :
    ∃ check, compile pattern compiler = .ok check ∧ check.pattern = pattern ∧
      ∀ text : String, check.accepts text = true ↔ r.Matches d.Spans text.toList := by
  have hanchored := Dialect.denotes_anchored hd h hcomment
  obtain ⟨search, hsearch⟩ := (hcompiler.compiles _).mpr ⟨_, hanchored⟩
  obtain ⟨check, hcompile, hpattern, rfl⟩ := compile_ok hsearch
  refine ⟨check, hcompile, hpattern, fun text => ?_⟩
  exact (hcompiler.searches hsearch hanchored _).trans (Dialect.occurs_between hd r _)

end Check

/-! ## 4. Literals -/

namespace Literal

/-- Whether a content has a value whose text matches in full. -/
def Passes (engine : Engine) (b : Bindings) (full : List Char → Prop) (content : List Char) :
    Prop :=
  ∃ v, engine.evaluate (String.ofList content) b = .ok v ∧ full (substituted v).toList

/-- Whether a content is refused: it has no value, or the text of the value does not match. -/
def Refuses (engine : Engine) (b : Bindings) (pattern : String) (full : List Char → Prop)
    (content : List Char) (e : RenderError) : Prop :=
  engine.evaluate (String.ofList content) b = .error e ∨
    ∃ v, engine.evaluate (String.ofList content) b = .ok v ∧ ¬full (substituted v).toList ∧
      e = .validation (substituted v) pattern

/-- A literal that succeeds and fails by what matches in full. -/
structure Validates (l : Literal) (pattern : String) (full : List Char → Prop) : Prop where
  succeeds : ∀ (engine : Engine) (s : Scope), (∃ s', l.apply engine s = .ok true s') ↔
    ∀ content ∈ Delimiters.substitution.contents l.text.toList,
      Passes engine (exposeParameter s).bindings full content
  /-- The failure is that of the first content that is refused. -/
  fails : ∀ (engine : Engine) (s s' : Scope) (e : RenderError), l.apply engine s = .error e s' ↔
    (∃ before content after,
      Delimiters.substitution.contents l.text.toList = before ++ content :: after ∧
      (∀ c ∈ before, Passes engine (exposeParameter s).bindings full c) ∧
      Refuses engine (exposeParameter s).bindings pattern full content e) ∧ s' = exposeParameter s

theorem apply_error {l : Literal} {engine : Engine} {s s' : Scope} {e : RenderError} :
    l.apply engine s = .error e s' ↔
      Delimiters.substitution.scan (l.substitute engine) l.text.toList s = .error e s' := by
  unfold apply
  rw [RenderM.bind_error]
  constructor
  · rintro (h | ⟨text, m, -, h⟩)
    · exact h
    · cases h
  · exact .inl

theorem apply_true {l : Literal} {engine : Engine} {s s' : Scope} {b : Bool}
    (h : l.apply engine s = .ok b s') : b = true := by
  unfold apply at h
  obtain ⟨text, m, -, h⟩ := RenderM.bind_ok.mp h
  obtain ⟨_, m', -, h⟩ := RenderM.bind_ok.mp h
  exact (RenderM.pure_ok.mp h).1

/-- A literal succeeds when each of its contents has an answer. -/
theorem apply_ok {l : Literal} {engine : Engine} {s : Scope} :
    (∃ s', l.apply engine s = .ok true s') ↔
      ∀ content ∈ Delimiters.substitution.contents l.text.toList,
        ∃ text, l.answer engine (exposeParameter s).bindings content = .ok text := by
  rw [← exists_mapM_ok]
  have hfails (e : RenderError) :
      l.apply engine s = .error e (exposeParameter s) ↔
        (Delimiters.substitution.contents l.text.toList).mapM
          (l.answer engine (exposeParameter s).bindings) = .error e := by
    rw [apply_error, scan_error, mapM_error]
    exact and_iff_left rfl
  constructor
  · rintro ⟨s', h⟩
    cases hm : (Delimiters.substitution.contents l.text.toList).mapM
        (l.answer engine (exposeParameter s).bindings) with
    | ok texts => exact ⟨texts, rfl⟩
    | error e =>
      rw [(hfails e).mpr hm] at h
      cases h
  · rintro ⟨texts, hm⟩
    cases h : l.apply engine s with
    | ok b s' =>
      obtain rfl := apply_true h
      exact ⟨s', rfl⟩
    | error e s' =>
      obtain rfl := (scan_error.mp (apply_error.mp h)).2
      rw [(hfails e).mp h] at hm
      cases hm

/-- The literals with a check that accepts what matches in full. -/
theorem validates_of_accepts {pattern : String} {full : List Char → Prop} {check : Check}
    (hpattern : check.pattern = pattern)
    (haccepts : ∀ text : String, check.accepts text = true ↔ full text.toList) (text : String) :
    Validates { text, check := some check } pattern full := by
  have hpasses (engine : Engine) (b : Bindings) (content : List Char) :
      (∃ out, answer { text, check := some check } engine b content = .ok out) ↔
        Passes engine b full content := by
    unfold answer Passes
    cases engine.evaluate (String.ofList content) b with
    | error e => exact ⟨fun ⟨_, h⟩ => (nomatch h), fun ⟨_, h, _⟩ => (nomatch h)⟩
    | ok v =>
      simp only [checkText, Except.ok.injEq, exists_eq_left', ← haccepts]
      by_cases hv : check.accepts (substituted v) = true
      · simp [hv, Except.map]
      · simp [hv, Except.map]
  have hrefuses (engine : Engine) (b : Bindings) (content : List Char) (e : RenderError) :
      answer { text, check := some check } engine b content = .error e ↔
        Refuses engine b pattern full content e := by
    rw [answer_error]
    unfold Refuses
    simp only [Option.some.injEq, exists_eq_left', ← haccepts, Bool.not_eq_true, hpattern,
      exists_and_left]
  refine ⟨fun engine s => ?_, fun engine s s' e => ?_⟩
  · rw [apply_ok]
    simp only [hpasses]
  · rw [apply_error, scan_error]
    unfold FailsFirst
    simp only [hpasses, hrefuses]

/-- **Substitutions are validated by a full match of a well-formed pattern**, whatever the engine of
    regular expressions. Two things are otherwise: a well-formed pattern that ends in a comment is
    refused, and a pattern that is not well-formed is not refused if it ends the group that it is
    put into and goes on well-formed behind it. -/
theorem validation_full_match {Flags Names Atom : Type} {d : Dialect Flags Names Atom}
    {compiler : Compiler} (hd : d.Lawful) (hcompiler : compiler.Follows d) (pattern : String) :
    (∀ r, d.Denotes pattern.toList r → ¬d.EndsInComment pattern.toList →
      ∃ check, Check.compile pattern compiler = .ok check ∧
        ∀ text : String, Validates { text, check := some check } pattern (r.Matches d.Spans)) ∧
    (d.EndsInComment pattern.toList →
      (∃ r, d.Denotes pattern.toList r) ∧ Check.compile pattern compiler = .error ⟨pattern⟩) ∧
    ((¬∃ r, d.Denotes pattern.toList r) →
      (Check.compile pattern compiler = .error ⟨pattern⟩ ↔ ¬d.EndsGroup pattern.toList)) := by
  refine ⟨fun r hr hcomment => ?_, fun hcomment => ⟨hcomment.denotes, ?_⟩, fun hnot => ?_⟩
  · obtain ⟨check, hcompile, hpattern, haccepts⟩ :=
      Check.compile_matches hd hcompiler hr hcomment
    exact ⟨check, hcompile, validates_of_accepts hpattern haccepts⟩
  · rw [Check.compile_error_iff hcompiler]
    rintro ⟨r, hr⟩
    exact hcomment.not_denotes_anchored hd hr
  · rw [Check.compile_error_iff hcompiler, Dialect.exists_denotes_anchored hd]
    refine not_congr (or_iff_right ?_)
    rintro ⟨r, hr, -⟩
    exact hnot ⟨r, hr⟩

/-- The engine of the common dialect, and a pattern of each kind: one that is validated in full, one
    that ends in a comment, and one that is not well-formed. -/
theorem validation_common :
    Dialect.common.Lawful ∧ Compiler.common.Follows Dialect.common ∧
    (∃ r check, Dialect.common.Denotes "a|ab".toList r ∧ Check.compile "a|ab" = .ok check ∧
      ∀ text : String,
        Validates { text, check := some check } "a|ab" (r.Matches Dialect.common.Spans)) ∧
    Check.compile "(?x)a # c" = .error ⟨"(?x)a # c"⟩ ∧
    Check.compile "a)|(b" ≠ .error ⟨"a)|(b"⟩ := by
  have hd := Dialect.common_lawful
  have hvalidation := validation_full_match hd Compiler.common_follows
  refine ⟨hd, Compiler.common_follows, ?_, ?_, ?_⟩
  · obtain ⟨r, hr⟩ : ∃ r, Dialect.common.Denotes "a|ab".toList r :=
      (Dialect.exists_denotes_iff hd).mpr (by decide +kernel)
    obtain ⟨r', hr'⟩ : ∃ r, Dialect.common.Denotes (Check.anchored "a|ab") r :=
      (Dialect.exists_denotes_iff hd).mpr (by decide +kernel)
    have hcomment : ¬Dialect.common.EndsInComment "a|ab".toList :=
      fun h => h.not_denotes_anchored hd hr'
    obtain ⟨check, hcompile, hvalidates⟩ := (hvalidation "a|ab").1 r hr hcomment
    exact ⟨r, check, hr, hcompile, hvalidates⟩
  · exact ((hvalidation "(?x)a # c").2.1 Dialect.endsInComment_verbose).2
  · have hrefused := (hvalidation "a)|(b").2.2 Dialect.not_denotes_unbalanced
    exact fun h => hrefused.mp h Dialect.endsGroup_unbalanced

/-- A pattern that ends the group and opens one of its own: what begins with an `a` passes. -/
theorem unbalanced_pattern_passes :
    (¬∃ r, Dialect.common.Denotes "a)|(b".toList r) ∧
      ∃ check, Check.compile "a)|(b" = .ok check ∧ check.accepts "axx" = true := by
  refine ⟨Dialect.not_denotes_unbalanced, ?_⟩
  have hsearch : (Compiler.common.compile? (Check.anchored "a)|(b")).any (· ['a', 'x', 'x']) =
    true := by decide +kernel
  obtain ⟨search, hcompiled, hfound⟩ := (Option.any_eq_true _ _).mp hsearch
  obtain ⟨check, hcheck, -, rfl⟩ := Check.compile_ok hcompiled
  exact ⟨check, hcheck, hfound⟩

end Literal

end SqlTemplate
