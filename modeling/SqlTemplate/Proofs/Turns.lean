import SqlTemplate.Proofs.Alignment
import SqlTemplate.Proofs.Substitution

/-!
# Whose turn comes

A render goes down a tree and comes to one template after the other, until one of them fails. Failing
renders have no run, but all that they have come to before the failure has one.

* `Literal.scan_error`: a literal fails at its first token without an answer;
* `Descent`, `Earlier`: a way down a tree, and the order in which a render takes the ways;
* `Reaches`: the templates that a render comes to, with what it has handed out until then;
* `FailsItself`: a template fails that is not made to fail by another one in it;
* `Reaches.place`, `Reaches.before`: what a render comes to before a template that fails itself.
-/

namespace SqlTemplate

/-! ## 1. Steps that fail -/

namespace RenderM

variable {α β : Type}

/-- Two steps fail when the first one does, or the second one after it. -/
theorem bind_error {step : RenderM α} {next : α → RenderM β} {s s' : Scope} {e : RenderError} :
    (step >>= next) s = .error e s' ↔
      step s = .error e s' ∨ ∃ a m, step s = .ok a m ∧ next a m = .error e s' := by
  show EStateM.bind step next s = .error e s' ↔ _
  unfold EStateM.bind
  cases step s with
  | ok a m =>
    constructor
    · exact fun h => .inr ⟨a, m, rfl, h⟩
    · rintro (h | ⟨_, _, h, h'⟩)
      · cases h
      · cases h
        exact h'
  | error e' m =>
    constructor
    · intro h
      cases h
      exact .inl rfl
    · rintro (h | ⟨_, _, h, -⟩)
      · cases h
        rfl
      · cases h

/-- What comes after a step that succeeds has failed. -/
theorem next_error {step : RenderM α} {next : α → RenderM β} {s m s' : Scope} {a : α}
    {e : RenderError} (h : (step >>= next) s = .error e s') (hs : step s = .ok a m) :
    next a m = .error e s' := by
  rcases bind_error.mp h with h₁ | ⟨_, _, h₁, h₂⟩
  · rw [hs] at h₁
    cases h₁
  · rw [hs] at h₁
    cases h₁
    exact h₂

theorem ofExcept_error {x : Except RenderError α} {s s' : Scope} {e : RenderError} :
    ofExcept x s = .error e s' ↔ x = .error e ∧ s' = s := by
  cases x with
  | ok b =>
    show EStateM.Result.ok b s = .error e s' ↔ _
    simp only [reduceCtorEq, false_and]
  | error e' =>
    show EStateM.Result.error e' s = .error e s' ↔ _
    simp only [EStateM.Result.error.injEq, Except.error.injEq, eq_comm (a := s) (b := s')]

theorem wrapping_error {step : RenderM α} {wrap : RenderError → RenderError} {s s' : Scope}
    {e : RenderError} : wrapping wrap step s = .error e s' ↔
      ∃ cause, step s = .error cause s' ∧ e = wrap cause := by
  unfold wrapping
  cases step s with
  | ok a m => simp only [reduceCtorEq, false_and, exists_false]
  | error cause m =>
    simp only [EStateM.Result.error.injEq]
    constructor
    · rintro ⟨rfl, rfl⟩
      exact ⟨cause, ⟨rfl, rfl⟩, rfl⟩
    · rintro ⟨_, ⟨rfl, rfl⟩, rfl⟩
      exact ⟨rfl, rfl⟩

end RenderM

/-! ## 2. Substitutions that fail -/

section Steps

variable {α β ε : Type} {f : α → Except ε β} {x : α} {xs : List α}

theorem failsFirst_cons_error {e e' : ε} (hx : f x = .error e') :
    FailsFirst f (x :: xs) e ↔ e' = e := by
  rw [← mapM_error, mapM_cons_error hx, Except.error.injEq]

theorem failsFirst_cons_ok {y : β} {e : ε} (hx : f x = .ok y) :
    FailsFirst f (x :: xs) e ↔ FailsFirst f xs e := by
  rw [← mapM_error, ← mapM_error, mapM_cons_ok hx]
  cases xs.mapM f with
  | ok ys => exact ⟨fun h => (nomatch h), fun h => (nomatch h)⟩
  | error e' => exact Iff.rfl

end Steps

namespace Literal

/-- What stands for a content under bindings: the text of its value, if the engine has one and the
    text passes the check. -/
def answer (l : Literal) (engine : Engine) (b : Bindings) (content : List Char) :
    Except RenderError String :=
  match engine.evaluate (String.ofList content) b with
  | .ok v => (checkText l.check (substituted v)).map fun _ => substituted v
  | .error e => .error e

theorem checkText_error {check : Option Check} {text : String} {e : RenderError} :
    checkText check text = .error e ↔ ∃ c, check = some c ∧ c.accepts text = false ∧
      e = .validation text c.pattern := by
  cases check with
  | none =>
    constructor
    · intro h
      cases h
    · rintro ⟨_, h, -⟩
      cases h
  | some c =>
    simp only [checkText]
    cases hc : c.accepts text with
    | true =>
      constructor
      · intro h
        cases h
      · rintro ⟨_, ⟨⟩, h, -⟩
        rw [hc] at h
        cases h
    | false =>
      constructor
      · intro h
        cases h
        exact ⟨c, rfl, hc, rfl⟩
      · rintro ⟨_, ⟨⟩, -, rfl⟩
        rfl

/-- An answer is missing when the engine fails, or when the text of the value fails the check. -/
theorem answer_error {l : Literal} {engine : Engine} {b : Bindings} {content : List Char}
    {e : RenderError} : l.answer engine b content = .error e ↔
      engine.evaluate (String.ofList content) b = .error e ∨
        ∃ v c, engine.evaluate (String.ofList content) b = .ok v ∧ l.check = some c ∧
          c.accepts (substituted v) = false ∧ e = .validation (substituted v) c.pattern := by
  unfold answer
  cases engine.evaluate (String.ofList content) b with
  | error e' =>
    simp only [Except.error.injEq, reduceCtorEq, false_and, exists_false, or_false]
  | ok v =>
    have hmap : (checkText l.check (substituted v)).map (fun _ => substituted v) = .error e ↔
        checkText l.check (substituted v) = .error e := by
      cases checkText l.check (substituted v) with
      | error e' => simp only [Except.map, Except.error.injEq]
      | ok _ => simp only [Except.map, reduceCtorEq]
    simp only [hmap, checkText_error, reduceCtorEq, false_or, Except.ok.injEq, exists_and_left,
      exists_eq_left']

theorem substitute_eq (l : Literal) (engine : Engine) (content : List Char) (s : Scope) :
    l.substitute engine content s =
      match l.answer engine (exposeParameter s).bindings content with
      | .ok text => .ok (some text.toList) (exposeParameter s)
      | .error e => .error e (exposeParameter s) := by
  unfold answer
  show EStateM.bind (RenderM.ofExcept (engine.evaluate _ _)) _ (exposeParameter s) = _
  cases engine.evaluate (String.ofList content) (exposeParameter s).bindings with
  | error e => rfl
  | ok v =>
    show EStateM.bind (RenderM.ofExcept (checkText l.check (substituted v))) _ (exposeParameter s) = _
    cases hc : checkText l.check (substituted v) with
    | error e =>
      simp only [hc]
      rfl
    | ok _ =>
      simp only [hc]
      rfl

/-- Pieces fail at the first token without an answer. Whatever has been substituted before it, the
    scope is changed by nothing but the alias of the parameter. -/
theorem renderPieces_error {l : Literal} {engine : Engine} {e : RenderError} (ps : List Piece)
    {s s' : Scope} :
    Delimiters.substitution.renderPieces (l.substitute engine) ps s = .error e s' ↔
      FailsFirst (l.answer engine (exposeParameter s).bindings) (ps.filterMap Piece.content?) e ∧
        s' = exposeParameter s := by
  induction ps generalizing s with
  | nil =>
    constructor
    · intro h
      cases h
    · rintro ⟨⟨before, content, after, h, -⟩, -⟩
      exact absurd h (List.append_ne_nil_of_right_ne_nil _ (List.cons_ne_nil _ _)).symm
  | cons p ps ih =>
    cases hc : p.content? with
    | none =>
      rw [Delimiters.renderPieces_plain _ hc, List.filterMap_cons_none hc, ← ih]
      exact run_map_error
    | some content =>
      obtain rfl := p.eq_token_of_content? hc
      rw [Delimiters.renderPieces_token, List.filterMap_cons_some hc, RenderM.bind_error,
        substitute_eq]
      cases ha : l.answer engine (exposeParameter s).bindings content with
      | error e' =>
        rw [failsFirst_cons_error ha]
        simp only [EStateM.Result.error.injEq, reduceCtorEq, false_and, exists_false, or_false,
          eq_comm (a := exposeParameter s)]
      | ok text =>
        rw [failsFirst_cons_ok ha]
        have hrest := ih (s := exposeParameter s)
        rw [exposeParameter_exposeParameter] at hrest
        rw [← hrest]
        constructor
        · rintro (h | ⟨_, _, h, h'⟩)
          · cases h
          · cases h
            exact run_map_error.mp h'
        · intro h
          exact .inr ⟨_, _, rfl, run_map_error.mpr h⟩

theorem scan_error {l : Literal} {engine : Engine} {e : RenderError} {s s' : Scope} :
    Delimiters.substitution.scan (l.substitute engine) l.text.toList s = .error e s' ↔
      FailsFirst (l.answer engine (exposeParameter s).bindings)
          (Delimiters.substitution.contents l.text.toList) e ∧ s' = exposeParameter s :=
  renderPieces_error _

end Literal

/-! ## 3. Ways down a tree -/

/-- One step from a template to a template in it. -/
inductive Descent where
  /-- From a conditional to its body. -/
  | body (test : String)
  /-- From a loop to its body, rendered for the element with that position. -/
  | element (collection : String) (position : Nat)
  /-- From a sequence to the child with that position. -/
  | child (position : Nat)
  deriving DecidableEq, Repr

namespace Descent

/-- What a step puts around a failure that has arisen behind it. -/
def wrap : Descent → RenderError → RenderError
  | .body test, e => .inConditional test e
  | .element collection position, e => .inLoop collection position e
  | .child _, e => e

/-- A render takes a step before another one from the same template. -/
inductive Precedes : Descent → Descent → Prop
  | element {collection : String} {i j : Nat} (h : i < j) :
      Precedes (.element collection i) (.element collection j)
  | child {i j : Nat} (h : i < j) : Precedes (.child i) (.child j)

/-- The step when one more element or child stands in front. -/
def shift : Descent → Descent
  | .body test => .body test
  | .element collection position => .element collection (position + 1)
  | .child position => .child (position + 1)

theorem Precedes.shift {a b : Descent} (h : a.Precedes b) : a.shift.Precedes b.shift := by
  cases h with
  | element h => exact .element (Nat.succ_lt_succ h)
  | child h => exact .child (Nat.succ_lt_succ h)

end Descent

/-- A render takes one way before another one: where the ways part, the step of the first one
    precedes that of the second one. -/
inductive Earlier : List Descent → List Descent → Prop
  | parts {a b : Descent} {as bs : List Descent} (h : a.Precedes b) : Earlier (a :: as) (b :: bs)
  | follows {a : Descent} {as bs : List Descent} (h : Earlier as bs) : Earlier (a :: as) (a :: bs)

theorem Earlier.shift {a b : Descent} {as bs : List Descent} (h : Earlier (a :: as) (b :: bs)) :
    Earlier (a.shift :: as) (b.shift :: bs) := by
  cases h with
  | parts h => exact .parts h.shift
  | follows h => exact .follows h

/-! ## 4. Whose turn comes -/

/-- **The templates that a render of a task comes to** from a scope: the way to the template, the
    scope in which its turn comes, and the fragments that have been handed out until then. What
    stands in front of it has a run. -/
inductive Reaches (engine : Engine) :
    Task → Scope → List Descent → Template → Scope → List String → Prop where
  | here {t : Template} {s : Scope} : Reaches engine (.template t) s [] t s []
  | body {test : String} {body t : Template} {s m : Scope} {way : List Descent} {out : List String}
      (ht : engine.test test s.bindings = .ok true)
      (h : Reaches engine (.template body) s way t m out) :
      Reaches engine (.template (.conditional test body)) s (.body test :: way) t m out
  | sequence {ts : List Template} {t : Template} {s m : Scope} {way : List Descent}
      {out : List String} (h : Reaches engine (.templates ts) s way t m out) :
      Reaches engine (.template (.sequence ts)) s way t m out
  | child {child t : Template} {ts : List Template} {s m : Scope} {way : List Descent}
      {out : List String} (h : Reaches engine (.template child) s way t m out) :
      Reaches engine (.templates (child :: ts)) s (.child 0 :: way) t m out
  | later {child t : Template} {ts : List Template} {s s' m : Scope} {way : List Descent} {k : Nat}
      {out outs : List String} {js : List Event} (hr : Run engine (.template child) s s' out js)
      (h : Reaches engine (.templates ts) s' (.child k :: way) t m outs) :
      Reaches engine (.templates (child :: ts)) s (.child (k + 1) :: way) t m (out ++ outs)
  | loop {l : Loop} {body t : Template} {s m : Scope} {e : Element} {es : List Element}
      {way : List Descent} {out : List String}
      (he : engine.elements l.collection s.bindings = .ok (e :: es))
      (h : Reaches engine (.elements l body true (e :: es)) s way t m out) :
      Reaches engine (.template (.loop l body)) s way t m (l.opening.toList ++ out)
  | element {l : Loop} {body t : Template} {first : Bool} {e : Element} {es : List Element}
      {s m : Scope} {way : List Descent} {out : List String}
      (h : Reaches engine (.template body) (l.enter e s) way t m out) :
      Reaches engine (.elements l body first (e :: es)) s (.element l.collection 0 :: way) t m
        (l.passElement first s.counter out).2
  | next {l : Loop} {body t : Template} {first : Bool} {e : Element} {es : List Element}
      {s s' m : Scope} {way : List Descent} {k : Nat} {out outs : List String} {js : List Event}
      (hb : Run engine (.template body) (l.enter e s) s' out js)
      (h : Reaches engine (.elements l body (l.stillFirst first s.counter out) es) s'
        (.element l.collection k :: way) t m outs) :
      Reaches engine (.elements l body first (e :: es)) s (.element l.collection (k + 1) :: way) t m
        ((l.passElement first s.counter out).2 ++ outs)

/-- Whether a template has a run from a scope. -/
def HasRun (engine : Engine) (t : Template) (s : Scope) : Prop :=
  ∃ s' out js, Run engine (.template t) s s' out js

/-- **A template fails itself**: a literal at a substitution, a conditional at its test, a loop at
    its collection. The failure and the scope that it leaves. -/
inductive FailsItself (engine : Engine) : Template → Scope → RenderError → Scope → Prop where
  | literal {l : Literal} {s : Scope} {e : RenderError}
      (h : FailsFirst (l.answer engine (Literal.exposeParameter s).bindings)
        (Delimiters.substitution.contents l.text.toList) e) :
      FailsItself engine (.literal l) s e (Literal.exposeParameter s)
  | test {test : String} {body : Template} {s : Scope} {e : RenderError}
      (h : engine.test test s.bindings = .error e) :
      FailsItself engine (.conditional test body) s e s
  | collection {l : Loop} {body : Template} {s : Scope} {e : RenderError}
      (h : engine.elements l.collection s.bindings = .error e) :
      FailsItself engine (.loop l body) s e s

section Turns

variable {engine : Engine} {task : Task} {t t' : Template} {s s' m m' stop stop' : Scope}
  {way way' : List Descent} {out out' : List String} {cause cause' : RenderError}

theorem FailsItself.unique (h : FailsItself engine t s cause stop)
    (h' : FailsItself engine t s cause' stop') : cause = cause' ∧ stop = stop' := by
  cases h with
  | literal hl =>
    cases h' with
    | literal hl' =>
      cases (mapM_error.mpr hl).symm.trans (mapM_error.mpr hl')
      exact ⟨rfl, rfl⟩
  | test ht =>
    cases h' with
    | test ht' =>
      cases ht.symm.trans ht'
      exact ⟨rfl, rfl⟩
  | collection he =>
    cases h' with
    | collection he' =>
      cases he.symm.trans he'
      exact ⟨rfl, rfl⟩

/-- A template that fails itself has no run. -/
theorem FailsItself.not_hasRun (h : FailsItself engine t s cause stop) : ¬ HasRun engine t s := by
  rintro ⟨s', out, js, hr⟩
  cases h with
  | literal hl =>
    cases hr with
    | literal hs => cases hs.symm.trans (Literal.scan_error.mpr ⟨hl, rfl⟩)
  | test ht =>
    cases hr with
    | skip ht' => cases ht.symm.trans ht'
    | hold ht' => cases ht.symm.trans ht'
  | collection he =>
    cases hr with
    | empty he' => cases he.symm.trans he'
    | loop he' => cases he.symm.trans he'

/-- A template that fails itself changes nothing but the alias of the parameter. -/
theorem FailsItself.exposed (h : FailsItself engine t s cause stop) : Literal.Exposed s stop := by
  cases h with
  | literal => exact Literal.exposeParameter_cases s
  | test => exact .inl rfl
  | collection => exact .inl rfl

/-- Nothing in a template that fails itself gets its turn. -/
theorem FailsItself.reaches (hf : FailsItself engine t s cause stop)
    (h : Reaches engine (.template t) s way t' m out) : way = [] := by
  cases h with
  | here => rfl
  | body ht =>
    cases hf with
    | test ht' => cases ht.symm.trans ht'
  | sequence => cases hf
  | loop he =>
    cases hf with
    | collection he' => cases he.symm.trans he'

/-- What a run comes to has a run. -/
theorem Reaches.hasRun (h : Reaches engine task s way t m out) {outs : List String}
    {js : List Event} (hr : Run engine task s s' outs js) : HasRun engine t m := by
  induction h generalizing s' outs js with
  | here => exact ⟨_, _, _, hr⟩
  | body ht _ ih =>
    cases hr with
    | skip ht' => cases ht.symm.trans ht'
    | hold _ hb => exact ih hb
  | sequence _ ih =>
    cases hr with
    | sequence hts => exact ih hts
  | child _ ih =>
    cases hr with
    | cons hc _ => exact ih hc
  | later hc _ ih =>
    cases hr with
    | cons hc' hts =>
      obtain ⟨rfl, rfl, rfl⟩ := hc.unique hc'
      exact ih hts
  | loop he _ ih =>
    cases hr with
    | empty he' => cases he.symm.trans he'
    | loop he' hes =>
      cases he.symm.trans he'
      exact ih hes
  | element _ ih =>
    cases hr with
    | element hb _ => exact ih hb
  | next hb _ ih =>
    cases hr with
    | element hb' hes =>
      obtain ⟨rfl, rfl, rfl⟩ := hb.unique hb'
      exact ih hes

/-- The way from a list of templates starts with one of them. -/
theorem Reaches.way_of_templates {ts : List Template}
    (h : Reaches engine (.templates ts) s way t m out) : ∃ k back, way = .child k :: back := by
  cases h with
  | child => exact ⟨_, _, rfl⟩
  | later => exact ⟨_, _, rfl⟩

/-- **A way leads to one template**, in one scope and behind the same fragments. -/
theorem Reaches.unique (h : Reaches engine task s way t m out)
    (h' : Reaches engine task s way t' m' out') : t = t' ∧ m = m' ∧ out = out' := by
  induction h generalizing t' m' out' with
  | here =>
    cases h' with
    | here => exact ⟨rfl, rfl, rfl⟩
    | sequence hts => cases hts
    | loop _ hes => cases hes
  | body _ _ ih =>
    cases h' with
    | body _ hb => exact ih hb
  | sequence h ih =>
    cases h' with
    | here => cases h
    | sequence hts => exact ih hts
  | child _ ih =>
    cases h' with
    | child hc => exact ih hc
  | later hr _ ih =>
    cases h' with
    | later hr' hts =>
      obtain ⟨rfl, rfl, rfl⟩ := hr.unique hr'
      obtain ⟨rfl, rfl, rfl⟩ := ih hts
      exact ⟨rfl, rfl, rfl⟩
  | loop he h ih =>
    cases h' with
    | here => cases h
    | loop he' hes =>
      cases he.symm.trans he'
      obtain ⟨rfl, rfl, rfl⟩ := ih hes
      exact ⟨rfl, rfl, rfl⟩
  | element _ ih =>
    cases h' with
    | element hb =>
      obtain ⟨rfl, rfl, rfl⟩ := ih hb
      exact ⟨rfl, rfl, rfl⟩
  | next hr _ ih =>
    cases h' with
    | next hr' hes =>
      obtain ⟨rfl, rfl, rfl⟩ := hr.unique hr'
      obtain ⟨rfl, rfl, rfl⟩ := ih hes
      exact ⟨rfl, rfl, rfl⟩

/-- **Nothing behind a template that fails itself gets its turn**: what a render comes to lies on the
    way to that template, or it lies on an earlier way and has a run. -/
theorem Reaches.place (h : Reaches engine task s way t m out)
    (hf : FailsItself engine t m cause stop) (h' : Reaches engine task s way' t' m' out') :
    way' <+: way ∨ Earlier way' way ∧ HasRun engine t' m' := by
  have below {a : Descent} {w w' : List Descent} {P : Prop} (hw : w' <+: w ∨ Earlier w' w ∧ P) :
      a :: w' <+: a :: w ∨ Earlier (a :: w') (a :: w) ∧ P :=
    hw.imp (List.cons_prefix_cons.mpr ⟨rfl, ·⟩) fun ⟨he, hp⟩ => ⟨.follows he, hp⟩
  have shifted {a b : Descent} {w w' : List Descent} {P : Prop}
      (hw : a :: w' <+: b :: w ∨ Earlier (a :: w') (b :: w) ∧ P) :
      a.shift :: w' <+: b.shift :: w ∨ Earlier (a.shift :: w') (b.shift :: w) ∧ P := by
    refine hw.imp (fun hpre => ?_) fun ⟨he, hp⟩ => ⟨he.shift, hp⟩
    obtain ⟨hab, htail⟩ := List.cons_prefix_cons.mp hpre
    exact List.cons_prefix_cons.mpr ⟨congrArg Descent.shift hab, htail⟩
  induction h generalizing way' t' m' out' with
  | here => exact .inl (hf.reaches h' ▸ List.nil_prefix)
  | body _ _ ih =>
    cases h' with
    | here => exact .inl List.nil_prefix
    | body _ hb => exact below (ih hf hb)
  | sequence _ ih =>
    cases h' with
    | here => exact .inl List.nil_prefix
    | sequence hts => exact ih hf hts
  | child h ih =>
    cases h' with
    | child hc => exact below (ih hf hc)
    | later hr _ => exact absurd (h.hasRun hr) hf.not_hasRun
  | later hr _ ih =>
    cases h' with
    | child hc => exact .inr ⟨.parts (.child (Nat.succ_pos _)), hc.hasRun hr⟩
    | later hr' hts =>
      obtain ⟨rfl, rfl, rfl⟩ := hr.unique hr'
      exact shifted (ih hf hts)
  | loop he _ ih =>
    cases h' with
    | here => exact .inl List.nil_prefix
    | loop he' hes =>
      cases he.symm.trans he'
      exact ih hf hes
  | element h ih =>
    cases h' with
    | element hb => exact below (ih hf hb)
    | next hr _ => exact absurd (h.hasRun hr) hf.not_hasRun
  | next hr _ ih =>
    cases h' with
    | element hb => exact .inr ⟨.parts (.element (Nat.succ_pos _)), hb.hasRun hr⟩
    | next hr' hes =>
      obtain ⟨rfl, rfl, rfl⟩ := hr.unique hr'
      exact shifted (ih hf hes)

/-- **Everything that stands in front has had its turn and has a run**: each earlier child of a
    sequence and each earlier element of a loop on the way. -/
theorem Reaches.before (h : Reaches engine task s way t m out) {front back : List Descent}
    {a b : Descent} (hw : way = front ++ b :: back) (hab : a.Precedes b) :
    ∃ t' m' out', Reaches engine task s (front ++ [a]) t' m' out' ∧ HasRun engine t' m' := by
  induction h generalizing front a b with
  | here => exact absurd hw.symm (List.append_ne_nil_of_right_ne_nil _ (List.cons_ne_nil _ _))
  | body ht _ ih =>
    cases front with
    | nil =>
      cases hw
      cases hab
    | cons c front =>
      cases hw
      obtain ⟨t', m', out', h', hr⟩ := ih rfl hab
      exact ⟨t', m', out', .body ht h', hr⟩
  | sequence _ ih =>
    obtain ⟨t', m', out', h', hr⟩ := ih hw hab
    exact ⟨t', m', out', .sequence h', hr⟩
  | child _ ih =>
    cases front with
    | nil =>
      cases hw
      cases hab with
      | child hlt => exact absurd hlt (Nat.not_lt_zero _)
    | cons c front =>
      cases hw
      obtain ⟨t', m', out', h', hr⟩ := ih rfl hab
      exact ⟨t', m', out', .child h', hr⟩
  | later hc _ ih =>
    cases front with
    | nil =>
      cases hw
      cases hab with
      | @child i _ hlt =>
        cases i with
        | zero => exact ⟨_, _, _, .child .here, _, _, _, hc⟩
        | succ i =>
          obtain ⟨t', m', out', h', hr⟩ :=
            ih (List.nil_append (_ :: _)).symm (.child (Nat.lt_of_succ_lt_succ hlt))
          exact ⟨t', m', _, .later hc h', hr⟩
    | cons c front =>
      cases hw
      obtain ⟨t', m', out', h', hr⟩ := ih List.cons_append.symm hab
      exact ⟨t', m', _, .later hc h', hr⟩
  | loop he _ ih =>
    obtain ⟨t', m', out', h', hr⟩ := ih hw hab
    exact ⟨t', m', _, .loop he h', hr⟩
  | element _ ih =>
    cases front with
    | nil =>
      cases hw
      cases hab with
      | element hlt => exact absurd hlt (Nat.not_lt_zero _)
    | cons c front =>
      cases hw
      obtain ⟨t', m', out', h', hr⟩ := ih rfl hab
      exact ⟨t', m', _, .element h', hr⟩
  | next hb _ ih =>
    cases front with
    | nil =>
      cases hw
      cases hab with
      | @element _ i _ hlt =>
        cases i with
        | zero => exact ⟨_, _, _, .element .here, _, _, _, hb⟩
        | succ i =>
          obtain ⟨t', m', out', h', hr⟩ :=
            ih (List.nil_append (_ :: _)).symm (.element (Nat.lt_of_succ_lt_succ hlt))
          exact ⟨t', m', _, .next hb h', hr⟩
    | cons c front =>
      cases hw
      obtain ⟨t', m', out', h', hr⟩ := ih List.cons_append.symm hab
      exact ⟨t', m', _, .next hb h', hr⟩

end Turns

/-! ## 5. Bare scopes -/

section Bare

variable {engine : Engine} {task : Task} {s s' : Scope} {out : List String}

theorem Literal.Exposed.bare_eq {s s' : Scope} (h : Exposed s s') (hs : s.bare = s) :
    s'.bare = s' := by
  rcases h with rfl | ⟨v, rfl⟩
  · exact hs
  · exact congrArg (Scope.bind valueName v) hs

theorem Loop.enter_bare_eq (l : Loop) (e : Element) (hs : s.bare = s) :
    (l.enter e s).bare = l.enter e s := by
  rw [← l.enter_bare, hs]

/-- A run on a bare scope ends with a bare one. -/
theorem Run.bare_eq {js : List Event} (h : Run engine task s s' out js) (hs : s.bare = s) :
    s'.bare = s' := by
  induction h with
  | literal hscan => exact (Literal.scan_exposed hscan).bare_eq hs
  | skip => exact hs
  | hold _ _ ih => exact ih hs
  | sequence _ ih => exact ih hs
  | nil => exact hs
  | cons _ _ iht ihr => exact ihr (iht hs)
  | empty => exact hs
  | @loop l _ s _ _ _ _ _ _ _ ih => rw [l.leave_bare, ih hs]
  | done => exact hs
  | @element l _ _ e _ _ _ _ _ _ _ _ _ _ ihb ihr => exact ihr (ihb (l.enter_bare_eq e hs))

theorem Reaches.bare_eq {way : List Descent} {t : Template} {m : Scope}
    (h : Reaches engine task s way t m out) (hs : s.bare = s) : m.bare = m := by
  induction h with
  | here => exact hs
  | body _ _ ih => exact ih hs
  | sequence _ ih => exact ih hs
  | child _ ih => exact ih hs
  | later hr _ ih => exact ih (hr.bare_eq hs)
  | loop _ _ ih => exact ih hs
  | @element l _ _ _ e _ _ _ _ _ _ ih => exact ih (l.enter_bare_eq e hs)
  | @next l _ _ _ e _ _ _ _ _ _ _ _ _ hb _ ih => exact ih (hb.bare_eq (l.enter_bare_eq e hs))

end Bare

end SqlTemplate
