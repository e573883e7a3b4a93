import SqlTemplate.Expression.Evaluate
import SqlTemplate.Proofs.Turns

/-!
# Where a render fails

A render breaks off at its first failure. The wrappings of the failure are the way from the root of
the tree to the template that has failed, and the scope is left as that template leaves it.

* `Failure`: a template that a render comes to and that fails itself;
* `Failure.In.unique`, `Template.apply_error_iff`: a render has at most one failure, and it fails
  just when it has one;
* `Failure.Explains`: what a failure says about the render that it ends;
* `Template.apply_fails`: every failing render is explained so.
-/

namespace SqlTemplate

/-! ## 1. Failures -/

/-- A template at which a render breaks off. -/
structure Failure where
  /-- The way from the root of the tree to the template. -/
  way : List Descent
  template : Template
  /-- The scope in which its turn comes. -/
  start : Scope
  /-- The fragments that have been handed out by then. -/
  handed : List String
  /-- The failure of the template itself. -/
  cause : RenderError
  /-- The scope that the template leaves. -/
  stop : Scope

namespace Failure

/-- The failure of the render: the cause behind what the steps of the way put around it. -/
def error (f : Failure) : RenderError := f.way.foldr Descent.wrap f.cause

/-- The scope that the render leaves, when it starts on a bare one. -/
def left (f : Failure) : Scope := { f.stop with fragments := f.handed }

/-- A failure in the render of a task: the render comes to the template, which fails itself. -/
structure In (engine : Engine) (task : Task) (s : Scope) (f : Failure) : Prop where
  reaches : Reaches engine task s f.way f.template f.start f.handed
  fails : FailsItself engine f.template f.start f.cause f.stop

/-- **A render has at most one failure.** -/
theorem In.unique {engine : Engine} {task : Task} {s : Scope} {f g : Failure}
    (hf : f.In engine task s) (hg : g.In engine task s) : f = g := by
  have onto {f g : Failure} (hf : f.In engine task s) (hg : g.In engine task s) :
      g.way <+: f.way :=
    (hf.reaches.place hf.fails hg.reaches).resolve_right fun h => hg.fails.not_hasRun h.2
  have hway : f.way = g.way :=
    (onto hg hf).eq_of_length (Nat.le_antisymm (onto hg hf).length_le (onto hf hg).length_le)
  obtain ⟨way, t, start, handed, cause, stop⟩ := f
  obtain ⟨way', t', start', handed', cause', stop'⟩ := g
  obtain rfl : way = way' := hway
  obtain ⟨rfl, rfl, rfl⟩ : t = t' ∧ start = start' ∧ handed = handed' :=
    hf.reaches.unique hg.reaches
  obtain ⟨rfl, rfl⟩ : cause = cause' ∧ stop = stop' := hf.fails.unique hg.fails
  rfl

end Failure

/-! ## 2. Renders that fail -/

namespace Transparent

variable {α : Type} {step : RenderM α} {s p : Scope} {e : RenderError}

/-- A transparent step that fails on a scope without layers fails on the bare scope, and what it has
    appended by then comes after the fragments that are there. -/
theorem bare_of_error (ht : Transparent step) (hl : s.layers = []) (h : step s = .error e p) :
    ∃ q, step s.bare = .error e q ∧ p.bare = q.bare ∧ p.fragments = s.fragments ++ q.fragments := by
  rw [ht s] at h
  cases hq : step s.bare with
  | ok a q =>
    rw [hq] at h
    cases h
  | error cause q =>
    rw [hq] at h
    cases h
    refine ⟨q, rfl, rfl, ?_⟩
    rw [Scope.receive_fragments, hl, Layer.nil_passThrough]

/-- The same under layers: they are taken off, and what has been appended has passed them. -/
theorem under_error (ht : Transparent step) {layers : List Layer}
    (h : RenderM.under layers step s = .error e p) :
    ∃ q, step s.bare = .error e q ∧
      p = s.receive { q with fragments := (Layer.passThrough layers q.fragments).2 } := by
  have hs : step (s.cover layers) = (s.cover layers).onto (step s.bare) := ht (s.cover layers)
  unfold RenderM.under at h
  rw [hs] at h
  cases hq : step s.bare with
  | ok a q =>
    rw [hq] at h
    cases h
  | error cause q =>
    rw [hq] at h
    simp only [Scope.onto, uncover_receive] at h
    cases h
    exact ⟨q, rfl, rfl⟩

end Transparent

section Renders

variable {engine : Engine}

/-- Whether every failing render of a template on a bare scope has a failure. -/
def HasFailures (engine : Engine) (t : Template) : Prop :=
  ∀ (s p : Scope) (e : RenderError), t.apply engine s.bare = .error e p →
    ∃ f : Failure, f.In engine (.template t) s.bare ∧ e = f.error ∧ p.bare = f.stop ∧
      p.fragments = f.handed

theorem literal_hasFailures (l : Literal) : HasFailures engine (.literal l) := by
  intro s p e h
  rcases RenderM.bind_error.mp h with hs | ⟨text, m, -, h₁⟩
  · obtain ⟨hf, rfl⟩ := Literal.scan_error.mp hs
    have hb := Literal.Exposed.bare_eq (Literal.exposeParameter_cases s.bare) s.bare_bare
    refine ⟨⟨[], _, _, _, e, _⟩, ⟨.here, .literal hf⟩, rfl, hb, ?_⟩
    rw [← hb]
    rfl
  · cases h₁

theorem conditional_hasFailures {test : String} {body : Template} (hb : HasFailures engine body) :
    HasFailures engine (.conditional test body) := by
  intro s p e h
  rw [Template.apply] at h
  unfold Template.applyConditional at h
  rcases RenderM.bind_error.mp (RenderM.next_error h rfl) with hx | ⟨passed, m, hx, h₁⟩
  · obtain ⟨ht, rfl⟩ := RenderM.ofExcept_error.mp hx
    exact ⟨⟨[], _, _, _, e, _⟩, ⟨.here, .test ht⟩, rfl, rfl, rfl⟩
  · obtain ⟨ht, rfl⟩ := RenderM.ofExcept_ok.mp hx
    cases passed with
    | false => cases h₁
    | true =>
      rcases RenderM.bind_error.mp h₁ with hw | ⟨_, _, _, h₂⟩
      · obtain ⟨cause, hc, rfl⟩ := RenderM.wrapping_error.mp hw
        obtain ⟨f, hf, rfl, hstop, hout⟩ := hb s p cause hc
        exact ⟨{ f with way := .body test :: f.way }, ⟨.body ht hf.reaches, hf.fails⟩, rfl, hstop,
          hout⟩
      · cases h₂

/-- One element of a loop that fails, rendered without layers over the scope. -/
theorem renderElement_error {l : Loop} {body : RenderM Bool} (hb : Transparent body)
    {first : Bool} {position : Nat} {e : Element} {s p : Scope} {error : RenderError}
    (h : l.renderElement body first position e s.bare = .error error p) :
    ∃ cause q, body (l.enter e s.bare) = .error cause q ∧
      error = .inLoop l.collection position cause ∧ p.bare = q.bare ∧
      p.fragments = (l.passElement first s.counter q.fragments).2 := by
  unfold Loop.renderElement at h
  have h₁ := RenderM.next_error (RenderM.next_error (RenderM.next_error h rfl) rfl) rfl
  rcases RenderM.bind_error.mp h₁ with hw | ⟨_, _, _, h₂⟩
  · obtain ⟨cause, hu, rfl⟩ := RenderM.wrapping_error.mp hw
    obtain ⟨q, hq, hp⟩ := hb.under_error hu
    have hs : (Loop.bindVariable l.item s.bare.nextId.1 e.value
        (Loop.bindVariable l.index s.bare.nextId.1 e.key s.bare.nextId.2)).bare = l.enter e s.bare :=
      l.enter_bare_eq e s.bare_bare
    refine ⟨cause, q, hs ▸ hq, rfl, by rw [hp]; rfl, ?_⟩
    rw [hp, Scope.receive_fragments]
    show (l.enter e s.bare).fragments ++ (Layer.passThrough (l.enter e s.bare).layers _).2 = _
    rw [← hs]
    rfl
  · cases h₂

theorem renderElements_error {l : Loop} {body : Template} (hb : HasFailures engine body)
    (es : List Element) : ∀ (first : Bool) (position : Nat) (s p : Scope) (error : RenderError),
    l.renderElements (body.apply engine) first position es s.bare = .error error p →
      ∃ (f : Failure) (k : Nat) (way : List Descent), f.way = .element l.collection k :: way ∧
        f.In engine (.elements l body first es) s.bare ∧
        error = .inLoop l.collection (position + k) (way.foldr Descent.wrap f.cause) ∧
        p.bare = f.stop ∧ p.fragments = f.handed := by
  induction es with
  | nil =>
    intro first position s p error h
    cases h
  | cons e es ih =>
    intro first position s p error h
    have ht := body.apply_transparent engine
    rcases RenderM.bind_error.mp h with h₁ | ⟨next, p₁, h₁, h₂⟩
    · obtain ⟨cause, q, hq, rfl, hbare, hout⟩ := renderElement_error ht h₁
      rw [l.enter_bare] at hq
      obtain ⟨f, hf, rfl, hstop, hhanded⟩ := hb _ _ _ hq
      rw [← l.enter_bare] at hf
      exact ⟨{ f with
          way := .element l.collection 0 :: f.way
          handed := (l.passElement first s.bare.counter f.handed).2 },
        0, f.way, rfl, ⟨.element hf.reaches, hf.fails⟩, rfl, hbare.trans hstop, hhanded ▸ hout⟩
    · obtain ⟨r, q, hq, hbare, hl, hout, rfl⟩ := renderElement_ok ht h₁
      rw [l.enter_bare] at hq
      obtain ⟨js, hrun⟩ := run_of_apply body _ _ _ hq
      rw [← l.enter_bare] at hrun
      obtain ⟨p₂, h₃, hbare₂, hout₂⟩ :=
        (l.renderElements_transparent ht es _ _).bare_of_error hl h₂
      rw [hbare] at h₃
      obtain ⟨f, k, way, hway, hf, rfl, hstop, hhanded⟩ := ih _ _ q p₂ error h₃
      obtain ⟨way', t, start, handed, cause, stop⟩ := f
      obtain rfl : way' = _ := hway
      refine ⟨⟨.element l.collection (k + 1) :: way, t, start, _, cause, stop⟩, k + 1, way, rfl,
        ⟨.next hrun hf.reaches, hf.fails⟩, ?_, hbare₂.trans hstop, ?_⟩
      · rw [Nat.add_assoc, Nat.add_comm 1 k]
      · rw [hout₂, hout, hhanded]
        rfl

/-- A loop fails at its collection, or at one of its elements. -/
theorem Loop.apply_error {l : Loop} {body : RenderM Bool} {s p : Scope} {error : RenderError}
    (h : l.apply engine body s = .error error p) :
    (engine.elements l.collection s.bindings = .error error ∧ p = s) ∨
      ∃ e es, engine.elements l.collection s.bindings = .ok (e :: es) ∧
        l.renderElements body true 0 (e :: es) (appendText l.opening s) = .error error p := by
  unfold apply at h
  rcases RenderM.bind_error.mp (RenderM.next_error h rfl) with hx | ⟨es, m, hx, h₁⟩
  · exact .inl (RenderM.ofExcept_error.mp hx)
  · obtain ⟨he, rfl⟩ := RenderM.ofExcept_ok.mp hx
    cases es with
    | nil => cases h₁
    | cons e es =>
      have h₂ := RenderM.next_error (RenderM.next_error (RenderM.next_error h₁ rfl) rfl) rfl
      rcases RenderM.bind_error.mp h₂ with h₃ | ⟨_, _, _, h₃⟩
      · exact .inr ⟨e, es, he, h₃⟩
      · cases h₃

theorem loop_hasFailures {l : Loop} {body : Template} (hb : HasFailures engine body) :
    HasFailures engine (.loop l body) := by
  intro s p error h
  rw [Template.apply] at h
  rcases l.apply_error h with ⟨he, rfl⟩ | ⟨e, es, he, hes⟩
  · exact ⟨⟨[], _, _, _, error, _⟩, ⟨.here, .collection he⟩, rfl, rfl, rfl⟩
  · have ht := body.apply_transparent engine
    obtain ⟨q, hq, hbare, hout⟩ := (l.renderElements_transparent ht _ _ _).bare_of_error
      (by rw [Loop.appendText_eq, Scope.appendAll_eq]; rfl) hes
    have hopen : (Loop.appendText l.opening s.bare).bare = s.bare := by
      rw [Loop.appendText_eq, Scope.appendAll_eq]
      rfl
    rw [hopen] at hq
    obtain ⟨f, k, way, hway, hf, rfl, hstop, hhanded⟩ := renderElements_error hb _ _ _ s q error hq
    refine ⟨{ f with handed := l.opening.toList ++ f.handed }, ⟨.loop he hf.reaches, hf.fails⟩, ?_,
      hbare.trans hstop, ?_⟩
    · unfold Failure.error
      rw [hway, Nat.zero_add]
      rfl
    · rw [hout, hhanded, Loop.appendText_eq, Scope.appendAll_eq]
      rfl

mutual

/-- **A failing render on a bare scope has a failure.** -/
theorem exists_failure : ∀ t : Template, HasFailures engine t
  | .literal l => literal_hasFailures l
  | .conditional _ body => conditional_hasFailures (exists_failure body)
  | .loop _ body => loop_hasFailures (exists_failure body)
  | .sequence children => fun s p e h =>
    match exists_failure_all children s p e h with
    | ⟨f, hf, he, hp⟩ => ⟨f, ⟨.sequence hf.reaches, hf.fails⟩, he, hp⟩

theorem exists_failure_all : ∀ (ts : List Template) (s p : Scope) (e : RenderError),
    Template.applyAll engine ts s.bare = .error e p →
      ∃ f : Failure, f.In engine (.templates ts) s.bare ∧ e = f.error ∧ p.bare = f.stop ∧
        p.fragments = f.handed
  | [], s, p, e, h => by cases h
  | t :: ts, s, p, e, h => by
    rcases RenderM.bind_error.mp h with h₁ | ⟨r, m, h₁, h₂⟩
    · obtain ⟨f, hf, rfl, hp⟩ := exists_failure t s p e h₁
      exact ⟨{ f with way := .child 0 :: f.way }, ⟨.child hf.reaches, hf.fails⟩, rfl, hp⟩
    · obtain ⟨js, hrun⟩ := run_of_apply t s m r h₁
      have hl : m.layers = [] := by
        have hl := (t.apply_transparent engine).layers_eq s
        rw [h₁] at hl
        exact hl
      obtain ⟨q, hq, hbare, hout⟩ :=
        (Template.applyAll_transparent engine ts).bare_of_error hl h₂
      obtain ⟨f, hf, rfl, hstop, hhanded⟩ := exists_failure_all ts m q e hq
      obtain ⟨k, way, hway⟩ := hf.reaches.way_of_templates
      obtain ⟨way', t', start, handed, cause, stop⟩ := f
      obtain rfl : way' = _ := hway
      refine ⟨⟨.child (k + 1) :: way, t', start, _, cause, stop⟩,
        ⟨.later hrun hf.reaches, hf.fails⟩, rfl, hbare.trans hstop, ?_⟩
      rw [hout, hhanded]

end

end Renders

/-! ## 3. Renders that have a failure -/

theorem Scope.receive_congr {s p q : Scope} (hb : p.bare = q.bare)
    (hf : p.fragments = q.fragments) : s.receive p = s.receive q := by
  have hbindings : p.bare.bindings = q.bare.bindings := congrArg Scope.bindings hb
  have hcounter : p.bare.counter = q.bare.counter := congrArg Scope.counter hb
  exact eq_of_parts hbindings (by rw [receive_fragments, receive_fragments, hf]) hcounter
    (by rw [receive_layers, receive_layers, hf])

/-- A template is applied in full. -/
def Template.AppliesIn (engine : Engine) (t : Template) (s : Scope) : Prop :=
  ∃ r p, t.apply engine s = .ok r p

section Whole

variable {engine : Engine} {t : Template} {s s' : Scope} {e : RenderError}

/-- A failing render has a failure, which is the failure of the render and tells the scope that it
    leaves. -/
theorem Template.failure_of_apply (h : t.apply engine s = .error e s') :
    ∃ f : Failure, f.In engine (.template t) s.bare ∧ e = f.error ∧ s' = s.receive f.left := by
  rw [t.apply_transparent engine s] at h
  cases hp : t.apply engine s.bare with
  | ok r p =>
    rw [hp] at h
    cases h
  | error cause p =>
    rw [hp] at h
    cases h
    obtain ⟨f, hf, rfl, hstop, hhanded⟩ := exists_failure t s p e hp
    refine ⟨f, hf, rfl, Scope.receive_congr ?_ hhanded⟩
    show p.bare = f.stop.bare
    rw [← hstop, Scope.bare_bare]

/-- A template is applied in full just when it has a run. -/
theorem Template.appliesIn_iff : t.AppliesIn engine s ↔ HasRun engine t s.bare := by
  constructor
  · rintro ⟨r, p, h⟩
    rw [t.apply_transparent engine s] at h
    cases hq : t.apply engine s.bare with
    | ok r' q =>
      obtain ⟨js, hr⟩ := run_of_apply t s q r' hq
      exact ⟨_, _, _, hr⟩
    | error e q =>
      rw [hq] at h
      cases h
  · rintro ⟨m, out, js, hr⟩
    cases hp : t.apply engine s with
    | ok r p => exact ⟨r, p, hp⟩
    | error e p =>
      obtain ⟨f, hf, -⟩ := failure_of_apply hp
      exact absurd (hf.reaches.hasRun hr) hf.fails.not_hasRun

/-- A failure makes a render fail, and tells the scope that the render leaves. -/
theorem Failure.In.apply_eq {f : Failure} (hf : f.In engine (.template t) s.bare) :
    t.apply engine s = .error f.error (s.receive f.left) := by
  cases hp : t.apply engine s with
  | ok r p =>
    obtain ⟨m, out, js, hr⟩ := Template.appliesIn_iff.mp ⟨r, p, hp⟩
    exact absurd (hf.reaches.hasRun hr) hf.fails.not_hasRun
  | error e p =>
    obtain ⟨g, hg, rfl, rfl⟩ := Template.failure_of_apply hp
    rw [hg.unique hf]

/-- **A render fails just when it has a failure.** -/
theorem Template.apply_error_iff : t.apply engine s = .error e s' ↔
    ∃ f : Failure, f.In engine (.template t) s.bare ∧ e = f.error ∧ s' = s.receive f.left := by
  constructor
  · exact failure_of_apply
  · rintro ⟨f, hf, rfl, rfl⟩
    exact hf.apply_eq

end Whole

/-! ## 4. Causes -/

namespace RenderError

/-- Whether a failure says where in a template another one arose. -/
def isContext : RenderError → Bool
  | .inConditional _ _ => true
  | .inLoop _ _ _ => true
  | .inStatement _ _ => true
  | _ => false

theorem root_of_not_isContext {e : RenderError} (h : e.isContext = false) : e.root = e := by
  cases e with
  | inConditional => cases h
  | inLoop => cases h
  | inStatement => cases h
  | _ => rfl

end RenderError

/-- No failure of an engine says where in a template it arose. -/
structure Engine.IsContextFree (engine : Engine) : Prop where
  evaluate : ∀ {x b e}, engine.evaluate x b = .error e → e.isContext = false
  test : ∀ {x b e}, engine.test x b = .error e → e.isContext = false
  elements : ∀ {x b e}, engine.elements x b = .error e → e.isContext = false

theorem Value.unpack_error {v : Value} {x : String} {e : RenderError} (h : v.unpack x = .error e) :
    e.isContext = false := by
  cases v with
  | undefined => cases h; rfl
  | null => cases h; rfl
  | seq => cases h
  | iter => cases h
  | bytes => cases h
  | map => cases h
  | _ => cases h; rfl

/-- An engine whose tests and collections go by the values of their expressions fails as it does for
    these values. -/
theorem Engine.isContextFree_of_evaluate
    {evaluate : String → Bindings → Except RenderError Value}
    (h : ∀ {x b e}, evaluate x b = .error e → e.isContext = false) :
    Engine.IsContextFree { evaluate } := by
  refine ⟨h, fun {x b e} ht => ?_, fun {x b e} hes => ?_⟩
  · change (evaluate x b).map Value.holds = .error e at ht
    cases hv : evaluate x b with
    | ok v =>
      rw [hv] at ht
      cases ht
    | error e' =>
      rw [hv] at ht
      cases ht
      exact h hv
  · dsimp only at hes
    cases hv : evaluate x b with
    | ok v =>
      rw [hv] at hes
      exact Value.unpack_error hes
    | error e' =>
      rw [hv] at hes
      cases hes
      exact h hv

/-- The engine of the expression language wraps no failures. -/
theorem Expression.Globals.engine_isContextFree (globals : Globals) :
    globals.engine.IsContextFree := by
  refine Engine.isContextFree_of_evaluate fun {x b e} h => ?_
  cases hr : run globals x b with
  | ok v =>
    rw [hr] at h
    cases h
  | error fault =>
    rw [hr] at h
    cases h
    rfl

theorem FailsItself.not_isContext {engine : Engine} (he : engine.IsContextFree) {t : Template}
    {s stop : Scope} {cause : RenderError} (h : FailsItself engine t s cause stop) :
    cause.isContext = false := by
  cases h with
  | literal hl =>
    obtain ⟨_, content, _, -, -, ha⟩ := hl
    rcases Literal.answer_error.mp ha with h | ⟨v, c, -, -, -, rfl⟩
    · exact he.evaluate h
    · rfl
  | test ht => exact he.test ht
  | collection hc => exact he.elements hc

theorem Descent.root_wrap (way : List Descent) (e : RenderError) :
    (way.foldr Descent.wrap e).root = e.root := by
  induction way with
  | nil => rfl
  | cons a way ih =>
    cases a with
    | body => exact ih
    | element => exact ih
    | child => exact ih

/-! ## 5. What a failure says -/

/-- **What a failure says about the render that it ends.** -/
structure Failure.Explains (f : Failure) (engine : Engine) (t : Template) (s : Scope)
    (e : RenderError) (s' : Scope) : Prop where
  /-- The render comes to the template of the failure, and it fails itself. -/
  isIn : f.In engine (.template t) s.bare
  /-- There is no other template in the render that fails itself. -/
  only : ∀ g : Failure, g.In engine (.template t) s.bare → g = f
  /-- The failure of the render is the bare cause behind what the way puts around it. -/
  error : e = f.error
  bare : f.cause.isContext = false
  root : e.root = f.cause
  /-- The template puts nothing around its own failure. It appends nothing: the scope is the same up
      to the alias of the parameter. -/
  itself : ∀ c : Scope, c.bare = f.start →
    ∃ c', f.template.apply engine c = .error f.cause c' ∧ Literal.Exposed c c'
  /-- What stands in front of the template has had its turn and has been applied in full. -/
  before : ∀ (front back : List Descent) (a b : Descent), f.way = front ++ b :: back → a.Precedes b →
    ∃ t' m out, Reaches engine (.template t) s.bare (front ++ [a]) t' m out ∧ t'.AppliesIn engine m
  /-- All that has had its turn lies on the way to the template, or it lies on an earlier way and
      has been applied in full. -/
  reached : ∀ way t' m out, Reaches engine (.template t) s.bare way t' m out →
    way <+: f.way ∨ Earlier way f.way ∧ t'.AppliesIn engine m
  /-- What stands behind the template takes no part: every tree in which a render comes to the
      template the same way fails the same. -/
  behind : ∀ t' : Template,
    Reaches engine (.template t') s.bare f.way f.template f.start f.handed →
      t'.apply engine s = .error e s'
  /-- The scope is the one that the template leaves. -/
  left : s' = s.receive f.left
  /-- The fragments that were there before the render are still there, in front of those that have
      been handed out before the turn of the template. -/
  kept : s'.fragments = s.fragments ++ (Layer.passThrough s.layers f.handed).2

/-- **Where a render fails**: every failing render, in whatever scope, breaks off at one template,
    which fails itself. -/
theorem Template.apply_fails {engine : Engine} (he : engine.IsContextFree) {t : Template}
    {s s' : Scope} {e : RenderError} (h : t.apply engine s = .error e s') :
    ∃ f : Failure, f.Explains engine t s e s' := by
  obtain ⟨f, hf, rfl, rfl⟩ := failure_of_apply h
  have hbare : f.cause.isContext = false := hf.fails.not_isContext he
  have applies {way t' m out} (hr : Reaches engine (.template t) s.bare way t' m out)
      (hrun : HasRun engine t' m) : t'.AppliesIn engine m :=
    appliesIn_iff.mpr ((hr.bare_eq s.bare_bare).symm ▸ hrun)
  refine ⟨f, hf, fun g hg => hg.unique hf, rfl, hbare, ?_, fun c hc => ?_, ?_, ?_, fun t' hr => ?_,
    rfl, Scope.receive_fragments s f.left⟩
  · exact (Descent.root_wrap _ _).trans (RenderError.root_of_not_isContext hbare)
  · have hin : (⟨[], f.template, c.bare, [], f.cause, f.stop⟩ : Failure).In engine
        (.template f.template) c.bare := ⟨.here, hc ▸ hf.fails⟩
    refine ⟨_, hin.apply_eq, ?_⟩
    have hx : Literal.Exposed c.bare f.stop := hc ▸ hf.fails.exposed
    unfold Failure.left
    rcases hx with h | ⟨v, h⟩
    · rw [h]
      exact .inl c.receive_self
    · rw [h]
      exact .inr ⟨v, rfl⟩
  · intro front back a b hway hab
    obtain ⟨t', m, out, hr, hrun⟩ := hf.reaches.before hway hab
    exact ⟨t', m, out, hr, applies hr hrun⟩
  · intro way t' m out hr
    exact (hf.reaches.place hf.fails hr).imp_right fun ⟨hway, hrun⟩ => ⟨hway, applies hr hrun⟩
  · have hin : f.In engine (.template t') s.bare := ⟨hr, hf.fails⟩
    exact hin.apply_eq

namespace RenderM

variable {α : Type}

/-- The failure of a step, with the fragments that are there then. -/
def failure? (step : RenderM α) (s : Scope) : Option (RenderError × List String) :=
  match step s with
  | .ok _ _ => none
  | .error e s' => some (e, s'.fragments)

theorem error_of_failure? {step : RenderM α} {s : Scope} {e : RenderError} {out : List String}
    (h : failure? step s = some (e, out)) : ∃ s', step s = .error e s' ∧ s'.fragments = out := by
  unfold failure? at h
  cases hs : step s with
  | ok a m =>
    rw [hs] at h
    cases h
  | error e' s' =>
    rw [hs] at h
    obtain ⟨rfl, hout⟩ := Prod.mk.inj (Option.some.inj h)
    exact ⟨s', rfl, hout⟩

end RenderM

/-- A loop that renders one more text behind the row of an element that is not zero. The second
    substitution of that text reads a field of a missing field. -/
def markedRows : Template :=
  .conditional "on"
    (.loop { collection := "xs", item := some "x", opening := some "(", separator := some "," }
      (.sequence [.ofText "row", .conditional "x" (.ofText "$\x7bx\x7d $\x7bx.y.z\x7d")]))

/-- The scope before a render of `markedRows` for two elements. -/
def markedScope : Scope :=
  .ofBindings (.forParameter (.map [(.str "on", .bool true), (.str "xs", .seq [.int 0, .int 7])])
    none none)

/-- The failure says which conditionals and which element it arose in, and the rows until then
    stay. -/
theorem markedRows_fails : ∃ e s', markedRows.apply .standard markedScope = .error e s' ∧
    (∃ f : Failure, f.Explains .standard markedRows markedScope e s') ∧
    e = .inConditional "on" (.inLoop "xs" 1 (.inConditional "x"
      (.evaluation "x.y.z" .undefinedError))) ∧
    s'.fragments = ["(", "row", ",", "row"] := by
  have hfails : RenderM.failure? (markedRows.apply .standard) markedScope =
      some (.inConditional "on" (.inLoop "xs" 1 (.inConditional "x"
        (.evaluation "x.y.z" .undefinedError))), ["(", "row", ",", "row"]) := by
    decide +kernel
  obtain ⟨s', hs, hout⟩ := RenderM.error_of_failure? hfails
  have hf := Template.apply_fails Expression.Globals.standard.engine_isContextFree hs
  exact ⟨_, s', hs, hf, rfl, hout⟩

end SqlTemplate
