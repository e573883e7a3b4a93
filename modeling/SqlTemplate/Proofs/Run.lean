import SqlTemplate.Proofs.Entries
import SqlTemplate.Proofs.Layers

/-!
# Runs

The big-step semantics of a successful render, on bare scopes: no layers lie over the scope, a
template hands out its fragments, and a loop says itself what becomes of those of its elements.

* `Task`: what is rendered, a template, a list of them or the elements of a loop. One relation over
  tasks serves the three, so that an induction over runs is a plain one;
* `Event`: what a run writes down: each fragment of a literal with the bindings of that moment, and
  each element of a loop with its number;
* `Run`: the relation, with the fragments and the journal of events of a run;
* `Run.unique`: a task has one run from a scope;
* `run_of_apply`: a render that succeeds is a run.
-/

namespace SqlTemplate

/-! ## 1. Steps that succeed -/

namespace RenderM

variable {α β : Type}

/-- Two steps succeed when the first one does and the second one does after it. -/
theorem bind_ok {step : RenderM α} {next : α → RenderM β} {s s' : Scope} {b : β} :
    (step >>= next) s = .ok b s' ↔ ∃ a m, step s = .ok a m ∧ next a m = .ok b s' := by
  show EStateM.bind step next s = .ok b s' ↔ _
  unfold EStateM.bind
  cases step s with
  | ok a m =>
    constructor
    · intro h
      exact ⟨a, m, rfl, h⟩
    · rintro ⟨a', m', h, h'⟩
      cases h
      exact h'
  | error e m =>
    constructor
    · intro h
      cases h
    · rintro ⟨_, _, h, _⟩
      cases h

theorem pure_ok {s s' : Scope} {a b : α} :
    (pure a : RenderM α) s = .ok b s' ↔ b = a ∧ s' = s := by
  show EStateM.Result.ok a s = .ok b s' ↔ _
  simp only [EStateM.Result.ok.injEq, eq_comm]

theorem get_ok {s s' a : Scope} : (get : RenderM Scope) s = .ok a s' ↔ a = s ∧ s' = s := by
  show EStateM.Result.ok s s = .ok a s' ↔ _
  simp only [EStateM.Result.ok.injEq, eq_comm]

theorem modify_ok {change : Scope → Scope} {s s' : Scope} {a : PUnit} :
    (modify change : RenderM PUnit) s = .ok a s' ↔ s' = change s := by
  show EStateM.Result.ok PUnit.unit (change s) = .ok a s' ↔ _
  simp only [EStateM.Result.ok.injEq, true_and, eq_comm]

theorem ofExcept_ok {x : Except RenderError α} {s s' : Scope} {a : α} :
    ofExcept x s = .ok a s' ↔ x = .ok a ∧ s' = s := by
  cases x with
  | ok b =>
    show EStateM.Result.ok b s = .ok a s' ↔ _
    simp only [EStateM.Result.ok.injEq, Except.ok.injEq, eq_comm (a := s) (b := s')]
  | error e =>
    show EStateM.Result.error e s = .ok a s' ↔ _
    simp only [reduceCtorEq, false_and]

theorem wrapping_ok {step : RenderM α} {wrap : RenderError → RenderError} {s s' : Scope} {a : α} :
    wrapping wrap step s = .ok a s' ↔ step s = .ok a s' := by
  unfold wrapping
  cases step s with
  | ok b m => exact Iff.rfl
  | error e m => simp only [reduceCtorEq]

/-- Whether a step succeeds. -/
def succeeds (step : RenderM α) (s : Scope) : Bool :=
  match step s with
  | .ok _ _ => true
  | .error _ _ => false

theorem ok_of_succeeds {step : RenderM α} {s : Scope} (h : succeeds step s = true) :
    ∃ a s', step s = .ok a s' := by
  unfold succeeds at h
  cases hs : step s with
  | ok a s' => exact ⟨a, s', rfl⟩
  | error e s' =>
    rw [hs] at h
    cases h

end RenderM

/-- The engine that has the same value for every expression. -/
def Engine.constant (v : Value) : Engine where
  evaluate := fun _ _ => .ok v

/-- The engine that looks names up. -/
def Engine.names : Engine where
  evaluate := fun name b => .ok ((b.get? name).getD .null)

/-! ## 2. Literals -/

namespace Literal

/-- The alias of the parameter is all that a substitution writes. -/
theorem exposeParameter_cases (s : Scope) :
    exposeParameter s = s ∨ ∃ v, exposeParameter s = s.bind valueName v := by
  cases h : s.bindings.exposed? with
  | none => exact .inl (exposeParameter_none h)
  | some v => exact .inr ⟨v, exposeParameter_some h⟩

theorem bind_bind (name : String) (v w : Value) (s : Scope) :
    (s.bind name v).bind name w = s.bind name w := by
  unfold Scope.bind Bindings.insert
  simp only [Entries.set_set]

/-- Whether a scope is another one up to the alias of the parameter. -/
def Exposed (s s' : Scope) : Prop := s' = s ∨ ∃ v, s' = s.bind valueName v

theorem Exposed.trans {s m s' : Scope} (h : Exposed s m) (h' : Exposed m s') : Exposed s s' := by
  rcases h with rfl | ⟨v, rfl⟩
  · exact h'
  · rcases h' with rfl | ⟨w, rfl⟩
    · exact .inr ⟨v, rfl⟩
    · exact .inr ⟨w, bind_bind _ _ _ _⟩

theorem Exposed.fragments {s s' : Scope} (h : Exposed s s') : s'.fragments = s.fragments := by
  rcases h with rfl | ⟨v, rfl⟩
  · rfl
  · rfl

theorem Exposed.layers {s s' : Scope} (h : Exposed s s') : s'.layers = s.layers := by
  rcases h with rfl | ⟨v, rfl⟩
  · rfl
  · rfl

theorem Exposed.counter {s s' : Scope} (h : Exposed s s') : s'.counter = s.counter := by
  rcases h with rfl | ⟨v, rfl⟩
  · rfl
  · rfl

/-- A substitution exposes the parameter and then asks for a value. -/
theorem substitute_ok {l : Literal} {engine : Engine} {content : List Char} {s s' : Scope}
    {text : Option (List Char)} (h : l.substitute engine content s = .ok text s') :
    ∃ v, engine.evaluate (String.ofList content) (exposeParameter s).bindings = .ok v ∧
      text = some (substituted v).toList ∧ s' = exposeParameter s := by
  unfold substitute at h
  obtain ⟨_, s₁, h₁, h₂⟩ := RenderM.bind_ok.mp h
  obtain rfl := RenderM.modify_ok.mp h₁
  obtain ⟨_, s₂, h₃, h₄⟩ := RenderM.bind_ok.mp h₂
  obtain ⟨rfl, rfl⟩ := RenderM.get_ok.mp h₃
  obtain ⟨v, s₃, h₅, h₆⟩ := RenderM.bind_ok.mp h₄
  obtain ⟨hv, rfl⟩ := RenderM.ofExcept_ok.mp h₅
  obtain ⟨_, s₄, h₇, h₈⟩ := RenderM.bind_ok.mp h₆
  obtain ⟨-, rfl⟩ := RenderM.ofExcept_ok.mp h₇
  obtain ⟨rfl, rfl⟩ := RenderM.pure_ok.mp h₈
  exact ⟨v, hv, rfl, rfl⟩

/-- A piece leaves the scope as it is, or it is a token and exposes the parameter. -/
theorem renderPiece_ok {l : Literal} {engine : Engine} {p : Piece} {s m : Scope} {text : List Char}
    (h : Delimiters.substitution.renderPiece (l.substitute engine) p s = .ok text m) :
    m = s ∨ ∃ content, p = .token content ∧ m = exposeParameter s := by
  cases p with
  | token content =>
    obtain ⟨reply, m', h₁, h₂⟩ := RenderM.bind_ok.mp h
    obtain ⟨v, -, rfl, rfl⟩ := substitute_ok h₁
    cases h₂
    exact .inr ⟨content, rfl, rfl⟩
  | text cs => cases h; exact .inl rfl
  | escapedOpen => cases h; exact .inl rfl
  | unterminated cs => cases h; exact .inl rfl
  | overlap => cases h; exact .inl rfl

/-- Reading the pieces of a literal changes nothing but the alias of the parameter. -/
theorem renderPieces_exposed {l : Literal} {engine : Engine} (pieces : List Piece)
    {s s' : Scope} {text : List Char}
    (h : Delimiters.substitution.renderPieces (l.substitute engine) pieces s = .ok text s') :
    Exposed s s' := by
  induction pieces generalizing s text with
  | nil =>
    cases h
    exact .inl rfl
  | cons p rest ih =>
    obtain ⟨_, m, h₁, h⟩ := RenderM.bind_ok.mp h
    obtain ⟨_, m', h₂, h⟩ := RenderM.bind_ok.mp h
    cases h
    have hm : Exposed s m := by
      rcases renderPiece_ok h₁ with rfl | ⟨content, -, rfl⟩
      · exact .inl rfl
      · exact exposeParameter_cases s
    exact hm.trans (ih h₂)

theorem scan_exposed {l : Literal} {engine : Engine} {s s' : Scope} {text : List Char}
    (h : Delimiters.substitution.scan (l.substitute engine) l.text.toList s = .ok text s') :
    Exposed s s' := renderPieces_exposed _ h

end Literal

/-! ## 3. The elements of a loop -/

namespace Loop

/-- The scope in which the body is rendered for an element, below the layers. -/
def enter (l : Loop) (e : Element) (s : Scope) : Scope :=
  bindVariable l.item s.counter e.value
    (bindVariable l.index s.counter e.key { s with counter := s.counter + 1 })

/-- The scope behind a loop: its variables stand for what they stood for before it. -/
def leave (l : Loop) (before s : Scope) : Scope :=
  restore l.index (shadowed l.index before) (restore l.item (shadowed l.item before) s)

/-- What the layers of an element make of the fragments of its body. -/
def passElement (l : Loop) (first : Bool) (suffix : Nat) (fragments : List String) :
    List Layer × List String :=
  Layer.passThrough (l.elementLayers first suffix) fragments

/-- Whether no element has rendered anything yet, once those of another one have passed. -/
def stillFirst (l : Loop) (first : Bool) (suffix : Nat) (fragments : List String) : Bool :=
  first && !(l.passElement first suffix fragments).1.any Layer.isApplied

@[simp] theorem enter_counter (l : Loop) (e : Element) (s : Scope) :
    (l.enter e s).counter = s.counter + 1 := by
  unfold enter
  cases l.item with
  | none => cases l.index with
    | none => rfl
    | some i => rfl
  | some x => cases l.index with
    | none => rfl
    | some i => rfl

theorem enter_bare (l : Loop) (e : Element) (s : Scope) :
    l.enter e s.bare = (l.enter e s).bare := by
  unfold enter
  cases l.item with
  | none => cases l.index with
    | none => rfl
    | some i => rfl
  | some x => cases l.index with
    | none => rfl
    | some i => rfl

theorem restore_counter (name : Option String) (before : Option Value) (s : Scope) :
    (restore name before s).counter = s.counter := by
  cases name with
  | none => rfl
  | some name =>
    cases before with
    | none => rfl
    | some v => rfl

@[simp] theorem leave_counter (l : Loop) (before s : Scope) :
    (l.leave before s).counter = s.counter := by
  unfold leave
  rw [restore_counter, restore_counter]

theorem restore_bare (name : Option String) (before : Option Value) (s : Scope) :
    (restore name before s).bare = restore name before s.bare := by
  cases name with
  | none => rfl
  | some name =>
    cases before with
    | none => rfl
    | some v => rfl

theorem leave_bare (l : Loop) (before s : Scope) :
    (l.leave before s).bare = l.leave before s.bare := by
  unfold leave
  rw [restore_bare, restore_bare]

theorem restore_fragments (name : Option String) (before : Option Value) (s : Scope) :
    (restore name before s).fragments = s.fragments := by
  cases name with
  | none => rfl
  | some name =>
    cases before with
    | none => rfl
    | some v => rfl

theorem leave_fragments (l : Loop) (before s : Scope) :
    (l.leave before s).fragments = s.fragments := by
  unfold leave
  rw [restore_fragments, restore_fragments]

theorem appendText_eq (text : Option String) (s : Scope) :
    appendText text s = s.appendAll text.toList := by
  cases text with
  | none => rfl
  | some text => rfl

theorem shadowed_appendText (name text : Option String) (s : Scope) :
    shadowed name (appendText text s) = shadowed name s := by
  cases name with
  | none => rfl
  | some name => cases text with
    | none => rfl
    | some text => rfl

/-- What a loop that succeeds has done. -/
theorem apply_ok {l : Loop} {engine : Engine} {body : RenderM Bool} {s p : Scope} {r : Bool}
    (h : l.apply engine body s = .ok r p) :
    (engine.elements l.collection s.bindings = .ok [] ∧ p = s) ∨
      ∃ e es m, engine.elements l.collection s.bindings = .ok (e :: es) ∧
        l.renderElements body true 0 (e :: es) (appendText l.opening s) = .ok () m ∧
        p = l.leave s (appendText l.closing m) := by
  unfold apply at h
  obtain ⟨_, _, h₁, h₂⟩ := RenderM.bind_ok.mp h
  obtain ⟨rfl, rfl⟩ := RenderM.get_ok.mp h₁
  obtain ⟨es, _, h₃, h₄⟩ := RenderM.bind_ok.mp h₂
  obtain ⟨he, rfl⟩ := RenderM.ofExcept_ok.mp h₃
  cases es with
  | nil => exact .inl ⟨he, (RenderM.pure_ok.mp h₄).2⟩
  | cons e es =>
    obtain ⟨_, s₁, h₅, h₆⟩ := RenderM.bind_ok.mp h₄
    obtain ⟨_, _, h₇, h₈⟩ := RenderM.bind_ok.mp h₆
    obtain ⟨rfl, rfl⟩ := RenderM.get_ok.mp h₇
    obtain ⟨_, _, h₉, h₁₀⟩ := RenderM.bind_ok.mp h₈
    obtain ⟨rfl, rfl⟩ := RenderM.get_ok.mp h₉
    obtain ⟨_, m, h₁₁, h₁₂⟩ := RenderM.bind_ok.mp h₁₀
    obtain ⟨_, s₂, h₁₃, h₁₄⟩ := RenderM.bind_ok.mp h₁₂
    obtain ⟨_, s₃, h₁₅, h₁₆⟩ := RenderM.bind_ok.mp h₁₄
    obtain ⟨_, s₄, h₁₇, h₁₈⟩ := RenderM.bind_ok.mp h₁₆
    rw [RenderM.modify_ok.mp h₅] at h₁₁ h₁₅ h₁₇
    refine .inr ⟨e, es, m, he, h₁₁, ?_⟩
    rw [(RenderM.pure_ok.mp h₁₈).2, RenderM.modify_ok.mp h₁₇, RenderM.modify_ok.mp h₁₅,
      RenderM.modify_ok.mp h₁₃, shadowed_appendText, shadowed_appendText]
    rfl

end Loop

/-! ## 4. Runs -/

/-- What is rendered. -/
inductive Task where
  | template (t : Template)
  | templates (ts : List Template)
  /-- The elements of a loop that are left. `first` says whether none of those before them has
      rendered anything. -/
  | elements (l : Loop) (body : Template) (first : Bool) (es : List Element)

/-- What a run writes down. -/
inductive Event where
  /-- A literal appends a fragment while these are the bindings. -/
  | appended (fragment : String) (bindings : Bindings)
  /-- An element of a loop gets a number. -/
  | entered (l : Loop) (suffix : Nat) (e : Element)

/-- **A run**: the scope before it and behind it, the fragments it hands out and its journal. -/
inductive Run (engine : Engine) : Task → Scope → Scope → List String → List Event → Prop where
  | literal {l : Literal} {s s' : Scope} {text : List Char}
      (hs : Delimiters.substitution.scan (l.substitute engine) l.text.toList s = .ok text s') :
      Run engine (.template (.literal l)) s s' [String.ofList text]
        [.appended (String.ofList text) s'.bindings]
  | skip {test : String} {body : Template} {s : Scope}
      (ht : engine.test test s.bindings = .ok false) :
      Run engine (.template (.conditional test body)) s s [] []
  | hold {test : String} {body : Template} {s s' : Scope} {out : List String} {js : List Event}
      (ht : engine.test test s.bindings = .ok true)
      (hb : Run engine (.template body) s s' out js) :
      Run engine (.template (.conditional test body)) s s' out js
  | sequence {ts : List Template} {s s' : Scope} {out : List String} {js : List Event}
      (hr : Run engine (.templates ts) s s' out js) :
      Run engine (.template (.sequence ts)) s s' out js
  | nil {s : Scope} : Run engine (.templates []) s s [] []
  | cons {t : Template} {ts : List Template} {s m s' : Scope} {out outs : List String}
      {js ks : List Event} (ht : Run engine (.template t) s m out js)
      (hr : Run engine (.templates ts) m s' outs ks) :
      Run engine (.templates (t :: ts)) s s' (out ++ outs) (js ++ ks)
  | empty {l : Loop} {body : Template} {s : Scope}
      (he : engine.elements l.collection s.bindings = .ok []) :
      Run engine (.template (.loop l body)) s s [] []
  | loop {l : Loop} {body : Template} {s s' : Scope} {e : Element} {es : List Element}
      {out : List String} {js : List Event}
      (he : engine.elements l.collection s.bindings = .ok (e :: es))
      (hr : Run engine (.elements l body true (e :: es)) s s' out js) :
      Run engine (.template (.loop l body)) s (l.leave s s')
        (l.opening.toList ++ out ++ l.closing.toList) js
  | done {l : Loop} {body : Template} {first : Bool} {s : Scope} :
      Run engine (.elements l body first []) s s [] []
  | element {l : Loop} {body : Template} {first : Bool} {e : Element} {es : List Element}
      {s m s' : Scope} {out outs : List String} {js ks : List Event}
      (hb : Run engine (.template body) (l.enter e s) m out js)
      (hr : Run engine (.elements l body (l.stillFirst first s.counter out) es) m s' outs ks) :
      Run engine (.elements l body first (e :: es)) s s'
        ((l.passElement first s.counter out).2 ++ outs) (.entered l s.counter e :: js ++ ks)

/-- **A task has one run from a scope.** -/
theorem Run.unique {engine : Engine} {task : Task} {s s₁ s₂ : Scope} {out₁ out₂ : List String}
    {js₁ js₂ : List Event} (h₁ : Run engine task s s₁ out₁ js₁)
    (h₂ : Run engine task s s₂ out₂ js₂) : s₁ = s₂ ∧ out₁ = out₂ ∧ js₁ = js₂ := by
  induction h₁ generalizing s₂ out₂ js₂ with
  | literal hs =>
    cases h₂ with
    | literal hs' =>
      rw [hs] at hs'
      cases hs'
      exact ⟨rfl, rfl, rfl⟩
  | skip ht =>
    cases h₂ with
    | skip => exact ⟨rfl, rfl, rfl⟩
    | hold ht' =>
      rw [ht] at ht'
      cases ht'
  | hold ht _ ih =>
    cases h₂ with
    | skip ht' =>
      rw [ht] at ht'
      cases ht'
    | hold _ hb => exact ih hb
  | sequence _ ih =>
    cases h₂ with
    | sequence hr => exact ih hr
  | nil =>
    cases h₂ with
    | nil => exact ⟨rfl, rfl, rfl⟩
  | cons _ _ iht ihr =>
    cases h₂ with
    | cons ht hr =>
      obtain ⟨rfl, rfl, rfl⟩ := iht ht
      obtain ⟨rfl, rfl, rfl⟩ := ihr hr
      exact ⟨rfl, rfl, rfl⟩
  | empty he =>
    cases h₂ with
    | empty => exact ⟨rfl, rfl, rfl⟩
    | loop he' =>
      rw [he] at he'
      cases he'
  | loop he _ ih =>
    cases h₂ with
    | empty he' =>
      rw [he] at he'
      cases he'
    | loop he' hr =>
      rw [he] at he'
      cases he'
      obtain ⟨rfl, rfl, rfl⟩ := ih hr
      exact ⟨rfl, rfl, rfl⟩
  | done =>
    cases h₂ with
    | done => exact ⟨rfl, rfl, rfl⟩
  | element _ _ ihb ihr =>
    cases h₂ with
    | element hb hr =>
      obtain ⟨rfl, rfl, rfl⟩ := ihb hb
      obtain ⟨rfl, rfl, rfl⟩ := ihr hr
      exact ⟨rfl, rfl, rfl⟩

/-! ## 5. Renders have runs -/

section Renders

variable {engine : Engine}

/-- Whether every successful render of a template on a bare scope is a run. -/
def HasRuns (engine : Engine) (t : Template) : Prop :=
  ∀ (s p : Scope) (r : Bool), t.apply engine s.bare = .ok r p →
    ∃ js, Run engine (.template t) s.bare p.bare p.fragments js

theorem literal_hasRuns (l : Literal) : HasRuns engine (.literal l) := by
  intro s p r h
  obtain ⟨text, s₁, h₁, h₂⟩ := RenderM.bind_ok.mp h
  obtain ⟨_, s₂, h₃, h₄⟩ := RenderM.bind_ok.mp h₂
  have hx := Literal.scan_exposed h₁
  have hp : p = s₁.append (String.ofList text) := by
    rw [(RenderM.pure_ok.mp h₄).2, RenderM.modify_ok.mp h₃]
  have hb : p.bare = s₁ := by
    rw [hp]
    exact Scope.eq_of_parts rfl hx.fragments.symm rfl hx.layers.symm
  have hf : p.fragments = [String.ofList text] := by
    rw [hp]
    show s₁.fragments ++ (Layer.passThrough s₁.layers [String.ofList text]).2 = _
    rw [hx.fragments, hx.layers]
    rfl
  rw [hb, hf]
  exact ⟨_, .literal h₁⟩

theorem conditional_hasRuns {test : String} {body : Template} (hb : HasRuns engine body) :
    HasRuns engine (.conditional test body) := by
  intro s p r h
  rw [Template.apply] at h
  unfold Template.applyConditional at h
  obtain ⟨s₁, s₂, h₁, h₂⟩ := RenderM.bind_ok.mp h
  obtain ⟨rfl, rfl⟩ := RenderM.get_ok.mp h₁
  obtain ⟨passed, s₃, h₃, h₄⟩ := RenderM.bind_ok.mp h₂
  obtain ⟨ht, rfl⟩ := RenderM.ofExcept_ok.mp h₃
  cases passed with
  | false =>
    obtain ⟨-, rfl⟩ := RenderM.pure_ok.mp h₄
    exact ⟨[], .skip ht⟩
  | true =>
    obtain ⟨_, s₄, h₅, h₆⟩ := RenderM.bind_ok.mp h₄
    obtain ⟨-, rfl⟩ := RenderM.pure_ok.mp h₆
    obtain ⟨js, hr⟩ := hb s p _ (RenderM.wrapping_ok.mp h₅)
    exact ⟨js, .hold ht hr⟩

/-- A transparent step that succeeds on a scope without layers succeeds on the bare scope, and its
    fragments come after those that are there. -/
theorem Transparent.bare_of_ok {α : Type} {step : RenderM α} (ht : Transparent step)
    {s p : Scope} {a : α} (hl : s.layers = []) (h : step s = .ok a p) :
    ∃ q, step s.bare = .ok a q ∧ p.bare = q.bare ∧ p.fragments = s.fragments ++ q.fragments ∧
      p.layers = [] := by
  rw [ht s] at h
  cases hq : step s.bare with
  | error e q =>
    rw [hq] at h
    cases h
  | ok b q =>
    rw [hq] at h
    cases h
    refine ⟨q, rfl, rfl, ?_, ?_⟩
    · rw [Scope.receive_fragments, hl, Layer.nil_passThrough]
    · rw [Scope.receive_layers, hl, Layer.nil_passThrough]

/-- A transparent step under layers is the step on the bare scope, with its fragments passed. -/
theorem Transparent.under_ok {α : Type} {step : RenderM α} (ht : Transparent step)
    {layers laid : List Layer} {s p : Scope} {a : α}
    (h : RenderM.under layers step s = .ok (a, laid) p) :
    ∃ q, step s.bare = .ok a q ∧ laid = (Layer.passThrough layers q.fragments).1 ∧
      p = s.receive { q with fragments := (Layer.passThrough layers q.fragments).2 } := by
  have hs : step (s.cover layers) = (s.cover layers).onto (step s.bare) := ht (s.cover layers)
  unfold RenderM.under at h
  rw [hs] at h
  cases hq : step s.bare with
  | error e q =>
    rw [hq] at h
    cases h
  | ok b q =>
    rw [hq] at h
    simp only [Scope.onto, uncover_receive] at h
    cases h
    exact ⟨q, rfl, rfl, rfl⟩

/-- One element of a loop, rendered without layers over the scope. -/
theorem renderElement_ok {l : Loop} {body : RenderM Bool} (hb : Transparent body)
    {first next : Bool} {position : Nat} {e : Element} {s p : Scope}
    (h : l.renderElement body first position e s.bare = .ok next p) :
    ∃ r q, body (l.enter e s.bare) = .ok r q ∧ p.bare = q.bare ∧ p.layers = [] ∧
      p.fragments = (l.passElement first s.counter q.fragments).2 ∧
      next = l.stillFirst first s.counter q.fragments := by
  unfold Loop.renderElement at h
  obtain ⟨suffix, s₁, h₁, h₂⟩ := RenderM.bind_ok.mp h
  cases h₁
  obtain ⟨_, s₂, h₃, h₄⟩ := RenderM.bind_ok.mp h₂
  obtain ⟨_, s₃, h₅, h₆⟩ := RenderM.bind_ok.mp h₄
  obtain ⟨⟨r, laid⟩, s₄, h₇, h₈⟩ := RenderM.bind_ok.mp h₆
  have hs : s₃ = l.enter e s.bare := by
    rw [RenderM.modify_ok.mp h₅, RenderM.modify_ok.mp h₃]
    rfl
  obtain ⟨q, hq, hlaid, hp⟩ := hb.under_ok (RenderM.wrapping_ok.mp h₇)
  obtain ⟨hn, rfl⟩ := RenderM.pure_ok.mp h₈
  rw [hs, ← l.enter_bare, Scope.bare_bare] at hq
  rw [hs, l.enter_bare] at hp
  rw [hlaid] at hn
  refine ⟨r, q, hq, by rw [hp]; rfl, ?_, ?_, hn⟩
  · rw [hp, Scope.receive_layers]
    rfl
  · rw [hp, Scope.receive_fragments]
    rfl

theorem renderElements_ok {l : Loop} {body : Template} (hb : HasRuns engine body)
    (es : List Element) : ∀ (first : Bool) (position : Nat) (s p : Scope),
    l.renderElements (body.apply engine) first position es s.bare = .ok () p →
      ∃ js, Run engine (.elements l body first es) s.bare p.bare p.fragments js := by
  induction es with
  | nil =>
    intro first position s p h
    obtain ⟨-, rfl⟩ := RenderM.pure_ok.mp h
    exact ⟨[], .done⟩
  | cons e es ih =>
    intro first position s p h
    obtain ⟨next, p₁, h₁, h₂⟩ := RenderM.bind_ok.mp h
    have ht := body.apply_transparent engine
    obtain ⟨r, q, hq, hbare, hl, hf, rfl⟩ := renderElement_ok ht h₁
    rw [l.enter_bare] at hq
    obtain ⟨js, hj⟩ := hb _ _ _ hq
    obtain ⟨p₂, h₃, hbare₂, hf₂, -⟩ :=
      (l.renderElements_transparent ht es _ _).bare_of_ok hl h₂
    rw [hbare] at h₃
    obtain ⟨ks, hk⟩ := ih _ _ q p₂ h₃
    rw [hbare₂, hf₂, hf]
    rw [← l.enter_bare] at hj
    exact ⟨_, .element hj hk⟩

theorem loop_hasRuns {l : Loop} {body : Template} (hb : HasRuns engine body) :
    HasRuns engine (.loop l body) := by
  intro s p r h
  rw [Template.apply] at h
  rcases l.apply_ok h with ⟨he, rfl⟩ | ⟨e, es, m, he, hm, rfl⟩
  · exact ⟨[], .empty he⟩
  · have hl : (Loop.appendText l.opening s.bare).layers = [] := by
      rw [Loop.appendText_eq, Scope.appendAll_eq]
      rfl
    have hbare : (Loop.appendText l.opening s.bare).bare = s.bare := by
      rw [Loop.appendText_eq, Scope.appendAll_eq]
      rfl
    have hf : (Loop.appendText l.opening s.bare).fragments = l.opening.toList := by
      rw [Loop.appendText_eq, Scope.appendAll_eq]
      rfl
    obtain ⟨q, hq, hqb, hqf, hql⟩ :=
      (l.renderElements_transparent (body.apply_transparent engine) _ _ _).bare_of_ok hl hm
    rw [hbare] at hq
    obtain ⟨js, hr⟩ := renderElements_ok hb _ _ _ _ _ hq
    have hout : (l.leave s.bare (Loop.appendText l.closing m)).fragments =
        l.opening.toList ++ q.fragments ++ l.closing.toList := by
      rw [Loop.leave_fragments, Loop.appendText_eq, Scope.appendAll_eq, hql,
        Layer.nil_passThrough, hqf, hf]
    have hend : (l.leave s.bare (Loop.appendText l.closing m)).bare = l.leave s.bare q.bare := by
      rw [Loop.leave_bare, Loop.appendText_eq, Scope.appendAll_eq, ← hqb]
      rfl
    rw [hout, hend]
    exact ⟨js, .loop he hr⟩

mutual

/-- **A successful render is a run**, with the fragments it has appended and the bindings and the
    counter it ends with. -/
theorem run_of_apply : ∀ t : Template, HasRuns engine t
  | .literal l => literal_hasRuns l
  | .conditional _ body => conditional_hasRuns (run_of_apply body)
  | .loop _ body => loop_hasRuns (run_of_apply body)
  | .sequence children => fun s p r h =>
    match runs_of_applyAll children s p r h with
    | ⟨js, hr⟩ => ⟨js, .sequence hr⟩

theorem runs_of_applyAll : ∀ (ts : List Template) (s p : Scope) (r : Bool),
    Template.applyAll engine ts s.bare = .ok r p →
      ∃ js, Run engine (.templates ts) s.bare p.bare p.fragments js
  | [], s, p, r, h => by
    obtain ⟨-, rfl⟩ := RenderM.pure_ok.mp h
    exact ⟨[], .nil⟩
  | t :: ts, s, p, r, h => by
    obtain ⟨_, m, h₁, h₂⟩ := RenderM.bind_ok.mp h
    obtain ⟨js, hj⟩ := run_of_apply t s m _ h₁
    have hl : m.layers = [] := by
      have hl := (t.apply_transparent engine).layers_eq s
      rw [h₁] at hl
      exact hl
    obtain ⟨q, hq, hb, hf, -⟩ := (Template.applyAll_transparent engine ts).bare_of_ok hl h₂
    obtain ⟨ks, hk⟩ := runs_of_applyAll ts m q r hq
    rw [hb, hf]
    exact ⟨_, .cons hj hk⟩

end

end Renders

end SqlTemplate
