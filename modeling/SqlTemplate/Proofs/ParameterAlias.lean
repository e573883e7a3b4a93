import SqlTemplate.Expression.Evaluate
import SqlTemplate.Proofs.LexicalScope
import SqlTemplate.Proofs.DeferredBinding
import SqlTemplate.Proofs.Substitution

/-!
# The alias of the parameter and what is bound

A substitution puts a scalar parameter, or null for a missing one, under an alias and leaves it
there. This file says what that changes for those who read the bindings afterwards.

* `Literal.exposeParameter_bindings`: a substitution changes the bindings and nothing else;
* `Engine.LooksUp`: an engine that asks bindings for the values of names and for nothing else;
* `Bindings.Aliased`: two bindings that differ in the alias alone, where it tells the parameter;
* `Bindings.Aliased.get?`: names stand for the same in both;
* `Bindings.Aliased.readNow`: so do paths, unless they lead from the alias into a scalar parameter.
-/

namespace SqlTemplate

open Literal (valueName seen)

/-! ## 1. Bindings after a substitution -/

theorem Literal.seen_some {b : Bindings} {v : Value} (h : b.exposed? = some v) :
    seen b = b.insert valueName v :=
  congrArg Scope.bindings (exposeParameter_some (s := .ofBindings b) h)

theorem Literal.seen_none {b : Bindings} (h : b.exposed? = none) : seen b = b :=
  congrArg Scope.bindings (exposeParameter_none (s := .ofBindings b) h)

/-- Exposing the parameter changes the bindings of a scope and nothing else. -/
theorem Literal.exposeParameter_bindings (s : Scope) :
    exposeParameter s = { s with bindings := seen s.bindings } := by
  cases h : s.bindings.exposed? with
  | none => rw [exposeParameter_none h, seen_none h]
  | some v =>
    rw [exposeParameter_some h, seen_some h]
    rfl

/-- A name other than that of the parameter does not change what is exposed. -/
theorem Bindings.exposed?_insert {b : Bindings} {n : String} (h : n ≠ parameterName) (v : Value) :
    (b.insert n v).exposed? = b.exposed? :=
  exposed?_congr (Entries.get?_set_of_ne h v b.entries)

theorem Bindings.exposed?_remove {b : Bindings} {n : String} (h : n ≠ parameterName) :
    (b.remove n).exposed? = b.exposed? :=
  exposed?_congr (Entries.get?_erase_of_ne h b.entries)

/-! ## 2. Engines that look names up -/

/-- Whether every name stands for the same value in two bindings. A name that stands for nothing is
    null. -/
def Bindings.SameNames (b b' : Bindings) : Prop :=
  ∀ n, (b'.get? n).getD .null = (b.get? n).getD .null

/-- Whether an engine asks bindings for the values of names and for nothing else. -/
structure Engine.LooksUp (engine : Engine) : Prop where
  evaluate : ∀ expression {b b' : Bindings}, b.SameNames b' →
    engine.evaluate expression b' = engine.evaluate expression b
  test : ∀ expression {b b' : Bindings}, b.SameNames b' →
    engine.test expression b' = engine.test expression b
  elements : ∀ expression {b b' : Bindings}, b.SameNames b' →
    engine.elements expression b' = engine.elements expression b

/-- An engine without rules of its own looks names up if its values do. -/
theorem Engine.LooksUp.of_evaluate {evaluate : String → Bindings → Except RenderError Value}
    (h : ∀ expression {b b' : Bindings}, b.SameNames b' →
      evaluate expression b' = evaluate expression b) : LooksUp { evaluate } where
  evaluate := h
  test expression b b' hb := by
    dsimp only
    rw [h expression hb]
  elements expression b b' hb := by
    dsimp only
    rw [h expression hb]

/-- **The engine of the language looks names up**, whatever names belong to the language. -/
theorem Expression.Globals.engine_looksUp (globals : Globals) : globals.engine.LooksUp := by
  refine Engine.LooksUp.of_evaluate fun expression b b' hb => ?_
  have hresolve : globals.resolve b' = globals.resolve b := by
    funext n
    unfold Globals.resolve
    rw [hb n]
  unfold run
  rw [hresolve]

/-! ## 3. Bindings that differ in the alias -/

/-- Whether a name is another one than the alias. -/
def isNoAlias (n : String) : Bool := n != valueName

/-- The parameter behind the entries when a substitution exposes `v`: it is missing, or it is the
    scalar `v`. -/
def Bindings.IsExposed (b : Bindings) (v : Value) : Prop :=
  (b.source = .absent ∧ v = .null) ∨ (b.source = .scalar v ∧ b.parameter = v)

theorem Bindings.IsExposed.readBehind {b : Bindings} {v : Value} (h : b.IsExposed v)
    (path : String) : b.readBehind path = v := by
  unfold Bindings.readBehind Bindings.shape
  rcases h with ⟨hs, rfl⟩ | ⟨hs, hv⟩
  · rw [hs]
    rfl
  · rw [hs]
    exact hv

/-- Whether `b'` are the bindings `b` with the alias of the parameter in addition at most. `e` is
    what a substitution exposes in both, and the alias stands for nothing else in either. -/
structure Bindings.Aliased (e : Option Value) (b b' : Bindings) : Prop where
  source : b'.source = b.source
  others : b'.entries.only isNoAlias = b.entries.only isNoAlias
  added : b'.entries.get? valueName = b.entries.get? valueName ∨
    (b.entries.get? valueName = none ∧ b'.entries.get? valueName = e)
  exposed : b.exposed? = e
  own : ∀ v w, e = some v → b.entries.get? valueName = some w → w = v
  behind : ∀ v, e = some v → b.IsExposed v
  same : e = none → b' = b

/-- A name that loops may use: neither that of the parameter nor the alias, unless nothing is
    exposed. -/
def IsFreeName (e : Option Value) (n : String) : Prop :=
  n ≠ Bindings.parameterName ∧ (n ≠ valueName ∨ e = none)

namespace Bindings.Aliased

variable {e : Option Value} {b b' : Bindings}

/-- All names but the alias have the same entries. -/
theorem get?_other (h : Aliased e b b') {n : String} (hn : n ≠ valueName) :
    b'.entries.get? n = b.entries.get? n := by
  have hp : isNoAlias n = true := bne_iff_ne.mpr hn
  rw [← Entries.get?_only isNoAlias hp, h.others, Entries.get?_only isNoAlias hp]

theorem parameter (h : Aliased e b b') : b'.parameter = b.parameter := by
  unfold Bindings.parameter
  rw [h.get?_other (by decide)]

theorem exposed' (h : Aliased e b b') : b'.exposed? = e :=
  (exposed?_congr (h.get?_other (by decide))).trans h.exposed

/-- Where the alias has no entry, the parameter answers for it with the same value. -/
theorem get?_alias (h : Aliased e b b') {v : Value} (he : e = some v) :
    (b.get? valueName).getD .null = v := by
  unfold Bindings.get?
  cases hg : b.entries.get? valueName with
  | some w => exact h.own v w he hg
  | none =>
    rcases h.behind v he with ⟨hs, rfl⟩ | ⟨hs, -⟩
    · rw [hs]
      rfl
    · rw [hs]
      rfl

/-- **Every name stands for the same value with the alias and without it.** -/
theorem get? (h : Aliased e b b') : b.SameNames b' := by
  intro n
  have step (he : b'.entries.get? n = b.entries.get? n) :
      (b'.get? n).getD .null = (b.get? n).getD .null := by
    unfold Bindings.get?
    rw [he, h.source]
  by_cases hn : n = valueName
  · subst hn
    rcases h.added with he | ⟨hb, hb'⟩
    · exact step he
    · cases he : e with
      | none =>
        rw [he] at hb'
        exact step (hb'.trans hb.symm)
      | some v =>
        rw [h.get?_alias he]
        unfold Bindings.get?
        rw [hb', he]
        rfl
  · exact step (h.get?_other hn)

/-! ## 4. Changes on both sides -/

/-- Changes that pass by the alias and the parameter. -/
theorem passing (h : Aliased e b b') {c c' : Bindings} (hs : c.source = b.source)
    (hs' : c'.source = b'.source)
    (ho : c'.entries.only isNoAlias = c.entries.only isNoAlias)
    (ha : c.entries.get? valueName = b.entries.get? valueName)
    (ha' : c'.entries.get? valueName = b'.entries.get? valueName)
    (hp : c.entries.get? parameterName = b.entries.get? parameterName)
    (hsame : b' = b → c' = c) : Aliased e c c' where
  source := by rw [hs, hs', h.source]
  others := ho
  added := by
    rw [ha, ha']
    exact h.added
  exposed := (exposed?_congr hp).trans h.exposed
  own := by
    rw [ha]
    exact h.own
  behind := by
    unfold IsExposed Bindings.parameter
    rw [hs, hp]
    exact h.behind
  same he := hsame (h.same he)

/-- Where nothing is exposed, bindings are aliased by themselves. -/
theorem of_none {b : Bindings} (h : b.exposed? = none) : Aliased none b b :=
  ⟨rfl, rfl, .inl rfl, h, fun _ _ he => (nomatch he), fun _ he => (nomatch he), fun _ => rfl⟩

theorem insert (h : Aliased e b b') {n : String} (hn : IsFreeName e n) (v : Value) :
    Aliased e (b.insert n v) (b'.insert n v) := by
  obtain ⟨hp, hv | he⟩ := hn
  · have hno : isNoAlias n = true := bne_iff_ne.mpr hv
    refine h.passing rfl rfl ?_ (Entries.get?_set_of_ne hv v _) (Entries.get?_set_of_ne hv v _)
      (Entries.get?_set_of_ne hp v _) fun he => by rw [he]
    show (b'.entries.set n v).only isNoAlias = (b.entries.set n v).only isNoAlias
    rw [Entries.only_set _ hno, Entries.only_set _ hno, h.others]
  · rw [h.same he, he]
    exact of_none ((exposed?_insert hp v).trans (h.exposed.trans he))

theorem remove (h : Aliased e b b') {n : String} (hn : IsFreeName e n) :
    Aliased e (b.remove n) (b'.remove n) := by
  obtain ⟨hp, hv | he⟩ := hn
  · have hno : isNoAlias n = true := bne_iff_ne.mpr hv
    refine h.passing rfl rfl ?_ (Entries.get?_erase_of_ne hv _) (Entries.get?_erase_of_ne hv _)
      (Entries.get?_erase_of_ne hp _) fun he => by rw [he]
    show (b'.entries.erase n).only isNoAlias = (b.entries.erase n).only isNoAlias
    rw [Entries.only_erase _ hno, Entries.only_erase _ hno, h.others]
  · rw [h.same he, he]
    exact of_none ((exposed?_remove hp).trans (h.exposed.trans he))

/-- A substitution on both sides. -/
theorem exposing (h : Aliased e b b') : Aliased e (seen b) (seen b') := by
  cases he : e with
  | none =>
    rw [h.same he, Literal.seen_none (h.exposed.trans he)]
    exact of_none (h.exposed.trans he)
  | some v =>
    have hno : isNoAlias valueName = false := bne_self_eq_false' valueName
    rw [Literal.seen_some (h.exposed.trans he), Literal.seen_some (h.exposed'.trans he)]
    refine ⟨h.source, ?_, .inl ?_, ?_, ?_, ?_, fun hn => (nomatch hn)⟩
    · show (b'.entries.set valueName v).only isNoAlias = (b.entries.set valueName v).only isNoAlias
      rw [Entries.only_set_other _ hno, Entries.only_set_other _ hno, h.others]
    · exact (Entries.get?_set_self _ _ _).trans (Entries.get?_set_self _ _ _).symm
    · exact (exposed?_insert (by decide) v).trans (h.exposed.trans he)
    · intro w u hw hu
      have hself : (b.insert valueName v).entries.get? valueName = some v :=
        Entries.get?_set_self _ _ _
      rw [hself] at hu
      exact (Option.some.inj hu).symm.trans (Option.some.inj hw)
    · intro w hw
      have hp : (b.insert valueName v).entries.get? parameterName = b.entries.get? parameterName :=
        Entries.get?_set_of_ne (by decide) v b.entries
      unfold IsExposed Bindings.parameter
      rw [hp]
      exact h.behind w (he.trans hw)

/-- **A substitution on one side** only adds the alias. -/
theorem exposing_right (h : Aliased e b b') : Aliased e b (seen b') := by
  cases he : e with
  | none =>
    rw [h.same he, Literal.seen_none (h.exposed.trans he)]
    exact of_none (h.exposed.trans he)
  | some v =>
    have hno : isNoAlias valueName = false := bne_self_eq_false' valueName
    have hself : (b'.insert valueName v).entries.get? valueName = some v :=
      Entries.get?_set_self _ _ _
    rw [Literal.seen_some (h.exposed'.trans he)]
    refine ⟨h.source, ?_, ?_, h.exposed.trans he, fun u w hu => h.own u w (he.trans hu),
      fun w hw => h.behind w (he.trans hw), fun hn => (nomatch hn)⟩
    · show (b'.entries.set valueName v).only isNoAlias = b.entries.only isNoAlias
      rw [Entries.only_set_other _ hno, h.others]
    · rw [hself]
      cases hg : b.entries.get? valueName with
      | none => exact .inr ⟨rfl, rfl⟩
      | some w => exact .inl (congrArg some (h.own v w he hg).symm)

end Bindings.Aliased

/-- The bindings at the start of a render tell what a substitution exposes. -/
theorem Bindings.aliased_forParameter (parameter : Value) (accessor : Option Accessor)
    (database : Option String) :
    Aliased (forParameter parameter accessor database).exposed?
      (forParameter parameter accessor database) (forParameter parameter accessor database) := by
  refine ⟨rfl, rfl, .inl rfl, rfl, fun v w _ hw => (nomatch hw), fun v hv => ?_, fun _ => rfl⟩
  cases parameter with
  | undefined => cases hv; exact .inl ⟨rfl, rfl⟩
  | null => cases hv; exact .inl ⟨rfl, rfl⟩
  | bool b => cases hv; exact .inr ⟨rfl, rfl⟩
  | int n => cases hv; exact .inr ⟨rfl, rfl⟩
  | float x => cases hv; exact .inr ⟨rfl, rfl⟩
  | str text => cases hv; exact .inr ⟨rfl, rfl⟩
  | bytes bs => cases hv; exact .inr ⟨rfl, rfl⟩
  | seq items => cases hv
  | iter items => cases hv
  | map entries => cases hv
  | object o => cases hv

/-! ## 5. Paths -/

namespace Bindings

/-- Whether a path leads from the alias into a scalar parameter. -/
def Enters (b : Bindings) (path : String) : Prop :=
  b.shape = .scalar ∧ ∃ step rest, Path.parse path = .name valueName :: step :: rest

/-- Nothing is inside of a missing value. -/
theorem read?_null (step : Path.Step) (rest : List Path.Step) :
    Path.read? .null (step :: rest) = none := by
  cases step with
  | name s => rfl
  | index n => rfl
  | key s => rfl

namespace Aliased

variable {e : Option Value} {b b' : Bindings} {path : String}

theorem sameParameter (h : Aliased e b b') : SameParameter b b' :=
  ⟨h.source, h.get?_other (by decide)⟩

/-- A path is read in the same way, or it starts with the alias, which has been added. -/
theorem added_cases (h : Aliased e b b') (path : String) :
    (b'.readNow path = b.readNow path ∧ b'.readOwn? path = b.readOwn? path) ∨
      ∃ v rest, e = some v ∧ Path.parse path = .name valueName :: rest ∧
        b.entries.get? valueName = none ∧ b'.entries.get? valueName = some v := by
  cases hroot : rootName? path with
  | none =>
    rw [readNow_unnamed hroot, readNow_unnamed hroot, readOwn?_unnamed hroot,
      readOwn?_unnamed hroot, h.sameParameter.readBehind]
    exact .inl ⟨rfl, rfl⟩
  | some root =>
    obtain ⟨rest, hparse⟩ := parse_of_rootName? hroot
    have same (hg : b'.entries.get? root = b.entries.get? root) :
        b'.readNow path = b.readNow path ∧ b'.readOwn? path = b.readOwn? path := by
      rw [readNow_name hparse, readNow_name hparse, readOwn?_name hparse, readOwn?_name hparse, hg,
        h.sameParameter.readBehind]
      exact ⟨rfl, rfl⟩
    by_cases hr : root = valueName
    · subst hr
      rcases h.added with hg | ⟨hb, hb'⟩
      · exact .inl (same hg)
      · cases he : e with
        | none =>
          rw [he] at hb'
          exact .inl (same (hb'.trans hb.symm))
        | some v => exact .inr ⟨v, rest, rfl, hparse, hb, hb'.trans he⟩
    · exact .inl (same (h.get?_other hr))

/-- A path that does not lead into the parameter is read in the same way, or it is the alias: one side
    reads from its entry what the other side reads from the parameter. -/
theorem read_cases (h : Aliased e b b') (hp : ¬b.Enters path) :
    (b'.readNow path = b.readNow path ∧ b'.readOwn? path = b.readOwn? path) ∨
      ∃ v, b.IsExposed v ∧ b.readOwn? path = none ∧ b'.readOwn? path = some v ∧
        b'.readNow path = b.readNow path := by
  rcases h.added_cases path with hsame | ⟨v, rest, he, hparse, hb, hb'⟩
  · exact .inl hsame
  · have hexposed := h.behind v he
    rw [readNow_name hparse, readNow_name hparse, readOwn?_name hparse, readOwn?_name hparse, hb, hb',
      Option.bind_none, Option.bind_some, hexposed.readBehind]
    cases rest with
    | nil => exact .inr ⟨v, hexposed, rfl, rfl, rfl⟩
    | cons step rest =>
      rcases hexposed with ⟨-, rfl⟩ | ⟨hs, -⟩
      · have hnone := read?_null step rest
        exact .inl ⟨congrArg (Option.getD · .null) hnone, hnone⟩
      · exact absurd ⟨congrArg Source.shape hs, step, rest, hparse⟩ hp

/-- **Paths read the same with the alias and without it**, unless they lead from the alias into a
    scalar parameter. -/
theorem readNow (h : Aliased e b b') (hp : ¬b.Enters path) : b'.readNow path = b.readNow path := by
  rcases h.read_cases hp with ⟨hnow, -⟩ | ⟨_, _, _, _, hnow⟩
  · exact hnow
  · exact hnow

/-- The types of markers are inferred in the same way. -/
theorem inferredType (h : Aliased e b b') {m : Marker} (hp : ¬b.Enters m.property) :
    m.inferredType b' = m.inferredType b := by
  have hshape : b'.shape = b.shape := congrArg Source.shape h.source
  have htype : b'.parameterType m.property = b.parameterType m.property := by
    unfold parameterType
    rw [h.source]
  rcases h.read_cases hp with ⟨-, hown⟩ | ⟨v, hexposed, hb, hb', -⟩
  · unfold Marker.inferredType
    rw [hown, hshape, h.parameter, htype]
  · have hempty : m.property.isEmpty = false := by
      cases hm : m.property.isEmpty with
      | false => rfl
      | true =>
        rw [String.isEmpty_iff.mp hm] at hb'
        cases hb'
    unfold Marker.inferredType
    rw [hb, hb']
    simp only [hempty, Bool.false_eq_true, ↓reduceIte, false_or]
    rcases hexposed with ⟨hs, rfl⟩ | ⟨hs, hv⟩
    · -- nothing declares a type for a parameter that is missing
      have habsent : b.shape = .absent := congrArg Source.shape hs
      have hany : b.parameterType m.property = .any := by
        unfold parameterType
        rw [hs]
        rfl
      rw [habsent, hany, if_neg (by decide), ite_self]
      rfl
    · have hscalar : b.shape = .scalar := congrArg Source.shape hs
      rw [if_pos hscalar, hv]

end Aliased

/-! ## 6. One substitution -/

/-- **What a substitution changes for those who read paths**, for the bindings of any parameter:
    nothing but for paths from the alias into a scalar parameter. Without the alias these are the
    parameter itself, and with it they are read inside of the parameter. -/
theorem resolve_exposing (parameter : Value) (accessor : Option Accessor)
    (database : Option String) {m : Marker} (hm : m.expression = none) (engine : Engine) :
    let b := forParameter parameter accessor database
    (¬b.Enters m.property → m.resolve (seen b) engine = m.resolve b engine) ∧
      ∀ step rest, b.shape = .scalar → Path.parse m.property = .name valueName :: step :: rest →
        m.resolve b engine = .ok b.parameter ∧
          m.resolve (seen b) engine =
            .ok ((Path.read? b.parameter (step :: rest)).getD .null) := by
  intro b
  have ha : Aliased b.exposed? b b := aliased_forParameter parameter accessor database
  rw [Marker.resolve_property hm, Marker.resolve_property hm]
  refine ⟨fun hp => congrArg Except.ok (ha.exposing_right.readNow hp), fun step rest hs hparse => ?_⟩
  have hb : b.entries.get? valueName = none := rfl
  cases he : b.exposed? with
  | none =>
    rcases (exposed?_forParameter parameter accessor database).mp he with hn | hn
    · cases hs.symm.trans hn
    · cases hs.symm.trans hn
  | some v =>
    have hb' : (seen b).entries.get? valueName = some v := by
      rw [Literal.seen_some he]
      exact Entries.get?_set_self _ _ _
    have hv : b.parameter = v := by
      rcases ha.behind v he with ⟨hx, -⟩ | ⟨-, hx⟩
      · cases hs.symm.trans (congrArg Source.shape hx)
      · exact hx
    rw [readNow_name hparse, readNow_name hparse, hb, hb', hv]
    refine ⟨?_, rfl⟩
    show Except.ok (b.readBehind m.property) = _
    unfold readBehind
    rw [hs, hv]

end Bindings

end SqlTemplate
