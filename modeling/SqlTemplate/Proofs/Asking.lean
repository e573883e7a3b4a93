import SqlTemplate.Proofs.Run

/-!
# What an engine is asked

The moments of a render at which its engine is asked for something, in failing renders too, with the
loops that are under way. What a render does to the entries between two moments is told name by
name, for names that it does not write for elements.

* `Frame`, `Moment`: an element of a loop that is being rendered, and a question to the engine;
* `Asks`: the moments of a render, told along the tree;
* `Silent`: no substitution of a render writes the alias;
* `run_only`: some of the entries are the same after a run as before it.
-/

namespace SqlTemplate

/-! ## 1. Moments -/

/-- An element of a loop, while the body of the loop is rendered for it. -/
structure Frame where
  loop : Loop
  element : Element

/-- What a name stands for in the body of a loop, if the loop names it. The item goes before the
    index. -/
def Frame.get? (f : Frame) (n : String) : Option Value :=
  if f.loop.item = some n then some f.element.value
  else if f.loop.index = some n then some f.element.key
  else none

/-- What an engine is asked for. -/
inductive Asking where
  /-- The value of a substitution. -/
  | value
  /-- Whether the body of a conditional is rendered. -/
  | test
  /-- The elements of a loop. -/
  | elements
  deriving DecidableEq, Repr

/-- A question to the engine. -/
structure Moment where
  asking : Asking
  expression : String
  /-- The bindings that are handed to the engine. -/
  bindings : Bindings
  /-- The elements that are being rendered, the innermost first. -/
  frames : List Frame := []

namespace Moment

/-- A moment inside the body of one more loop, which lies around the others. -/
def within (q : Moment) (f : Frame) : Moment := { q with frames := q.frames ++ [f] }

/-- What a name stands for at a moment: what the innermost loop that names it says, or what it stood
    for outside of all loops. -/
def scoped? (q : Moment) (n : String) (outer : Option Value) : Option Value :=
  (q.frames.findSome? (·.get? n)).or outer

/-- Two engines have the same answer. -/
def Agrees (q : Moment) (engine engine' : Engine) : Prop :=
  match q.asking with
  | .value => engine'.evaluate q.expression q.bindings = engine.evaluate q.expression q.bindings
  | .test => engine'.test q.expression q.bindings = engine.test q.expression q.bindings
  | .elements => engine'.elements q.expression q.bindings = engine.elements q.expression q.bindings

end Moment

/-- The substitutions that are asked for in the pieces of a literal: the first one, and the others
    if those before them succeed. -/
inductive Literal.Asks (l : Literal) (engine : Engine) :
    List Piece → Scope → List Char → Bindings → Prop
  | here {content : List Char} {ps : List Piece} {s : Scope} :
      l.Asks engine (.token content :: ps) s content (exposeParameter s).bindings
  | later {p : Piece} {ps : List Piece} {s m : Scope} {text content : List Char} {b : Bindings} :
      Delimiters.substitution.renderPiece (l.substitute engine) p s = .ok text m →
      l.Asks engine ps m content b → l.Asks engine (p :: ps) s content b

/-- **The moments of a render** from a scope. What comes later in a list or in a loop is asked for if
    what comes before it succeeds. -/
inductive Asks (engine : Engine) : Task → Scope → Moment → Prop
  | substitution {l : Literal} {s : Scope} {content : List Char} {b : Bindings} :
      l.Asks engine (Delimiters.substitution.pieces l.text.toList) s content b →
      Asks engine (.template (.literal l)) s
        { asking := .value, expression := String.ofList content, bindings := b }
  | test {test : String} {body : Template} {s : Scope} :
      Asks engine (.template (.conditional test body)) s
        { asking := .test, expression := test, bindings := s.bindings }
  | body {test : String} {body : Template} {s : Scope} {q : Moment} :
      engine.test test s.bindings = .ok true → Asks engine (.template body) s q →
      Asks engine (.template (.conditional test body)) s q
  | sequence {ts : List Template} {s : Scope} {q : Moment} :
      Asks engine (.templates ts) s q → Asks engine (.template (.sequence ts)) s q
  | child {t : Template} {ts : List Template} {s : Scope} {q : Moment} :
      Asks engine (.template t) s q → Asks engine (.templates (t :: ts)) s q
  | later {t : Template} {ts : List Template} {s m : Scope} {out : List String} {js : List Event}
      {q : Moment} : Run engine (.template t) s m out js → Asks engine (.templates ts) m q →
      Asks engine (.templates (t :: ts)) s q
  | collection {l : Loop} {body : Template} {s : Scope} :
      Asks engine (.template (.loop l body)) s
        { asking := .elements, expression := l.collection, bindings := s.bindings }
  | loop {l : Loop} {body : Template} {s : Scope} {es : List Element} {q : Moment} :
      engine.elements l.collection s.bindings = .ok es →
      Asks engine (.elements l body true es) s q → Asks engine (.template (.loop l body)) s q
  | element {l : Loop} {body : Template} {first : Bool} {e : Element} {es : List Element} {s : Scope}
      {q : Moment} : Asks engine (.template body) (l.enter e s) q →
      Asks engine (.elements l body first (e :: es)) s (q.within ⟨l, e⟩)
  | next {l : Loop} {body : Template} {first : Bool} {e : Element} {es : List Element}
      {s m : Scope} {out : List String} {js : List Event} {q : Moment} :
      Run engine (.template body) (l.enter e s) m out js →
      Asks engine (.elements l body (l.stillFirst first s.counter out) es) m q →
      Asks engine (.elements l body first (e :: es)) s q

/-! ## 2. Silent renders -/

namespace Literal

/-- Pieces whose substitutions expose nothing leave the scope as it is. -/
theorem renderPieces_silent {l : Literal} {engine : Engine} {ps : List Piece} {s s' : Scope}
    {text : List Char}
    (hq : ∀ content b, l.Asks engine ps s content b → b.exposed? = none)
    (h : Delimiters.substitution.renderPieces (l.substitute engine) ps s = .ok text s') : s' = s := by
  induction ps generalizing s text with
  | nil =>
    cases h
    rfl
  | cons p ps ih =>
    obtain ⟨_, m, h₁, h⟩ := RenderM.bind_ok.mp h
    obtain ⟨_, m', h₂, h⟩ := RenderM.bind_ok.mp h
    cases h
    have hm : m = s := by
      rcases renderPiece_ok h₁ with rfl | ⟨content, rfl, rfl⟩
      · rfl
      · have hx := hq content _ .here
        rw [exposed?_exposeParameter] at hx
        exact exposeParameter_none hx
    subst hm
    exact ih (fun content b ha => hq content b (.later h₁ ha)) h₂

end Literal

/-- No substitution of a render writes the alias of the parameter. -/
def Silent (engine : Engine) (task : Task) (s : Scope) : Prop :=
  ∀ q, Asks engine task s q → q.asking = .value → q.bindings.exposed? = none

theorem Silent.scan {engine : Engine} {l : Literal} {s s' : Scope} {text : List Char}
    (hq : Silent engine (.template (.literal l)) s)
    (h : Delimiters.substitution.scan (l.substitute engine) l.text.toList s = .ok text s') : s' = s :=
  Literal.renderPieces_silent (fun _ _ ha => hq _ (.substitution ha) rfl) h

/-! ## 3. Entries along a run -/

/-- Giving a variable back is giving its entry back. -/
theorem restore_entries (name : Option String) (before : Option Value) (s : Scope) :
    (Loop.restore name before s).bindings.entries =
      Entries.restore name before s.bindings.entries := by
  cases name with
  | none => rfl
  | some n =>
    cases before with
    | none => rfl
    | some v => rfl

theorem leave_entries (l : Loop) (before s : Scope) :
    (l.leave before s).bindings.entries =
      Entries.restore l.index (Entries.shadowed l.index before.bindings.entries)
        (Entries.restore l.item (Entries.shadowed l.item before.bindings.entries)
          s.bindings.entries) := by
  unfold Loop.leave
  rw [restore_entries, restore_entries]
  rfl

section Only

variable {p : String → Bool} (hp : ∀ name suffix, p (elementName name suffix) = false)

include hp in
theorem only_bindVariable (name : Option String) (suffix : Nat) (v : Value) (s : Scope) :
    (Loop.bindVariable name suffix v s).bindings.entries.only p =
      Entries.put (name.filter p) v (s.bindings.entries.only p) := by
  cases name with
  | none => rfl
  | some n =>
    show Entries.only p (Entries.set (elementName n suffix) v (Entries.set n v _)) = _
    rw [Entries.only_set_other p (hp n suffix)]
    exact Entries.only_put p (some n) v s.bindings.entries

include hp in
theorem only_enter (l : Loop) (e : Element) (s : Scope) :
    (l.enter e s).bindings.entries.only p =
      Entries.put (l.item.filter p) e.value
        (Entries.put (l.index.filter p) e.key (s.bindings.entries.only p)) := by
  unfold Loop.enter
  rw [only_bindVariable hp, only_bindVariable hp]

theorem only_leave (l : Loop) (before s : Scope) :
    (l.leave before s).bindings.entries.only p =
      Entries.restore (l.index.filter p)
        (Entries.shadowed (l.index.filter p) (before.bindings.entries.only p))
        (Entries.restore (l.item.filter p)
          (Entries.shadowed (l.item.filter p) (before.bindings.entries.only p))
          (s.bindings.entries.only p)) := by
  rw [leave_entries, Entries.only_restore, Entries.only_restore]

/-- Some of the entries while the elements of a loop are rendered: they are as they were in front of
    the loop, or its variables stand for one of the elements. -/
def EnteringOnly (p : String → Bool) (l : Loop) (start es : Entries) : Prop :=
  es = start ∨
    ∃ v k, es = Entries.put (l.item.filter p) v (Entries.put (l.index.filter p) k start)

include hp in
theorem EnteringOnly.enter {l : Loop} {start : Entries} {s : Scope} (e : Element)
    (h : EnteringOnly p l start (s.bindings.entries.only p)) :
    EnteringOnly p l start ((l.enter e s).bindings.entries.only p) := by
  refine .inr ⟨e.value, e.key, ?_⟩
  rw [only_enter hp]
  rcases h with h | ⟨v, k, h⟩
  · rw [h]
  · rw [h, Entries.put_put_put_put]

theorem EnteringOnly.leave {l : Loop} {before s : Scope}
    (h : EnteringOnly p l (before.bindings.entries.only p) (s.bindings.entries.only p)) :
    (l.leave before s).bindings.entries.only p = before.bindings.entries.only p := by
  rw [only_leave]
  rcases h with h | ⟨v, k, h⟩
  · rw [h, Entries.restore_shadowed, Entries.restore_shadowed]
  · rw [h, Entries.restore_restore_put_put]

/-- What a task does to some of the entries: nothing, or it has its variables stand for an
    element. -/
def Task.KeepsOnly (p : String → Bool) (start es : Entries) : Task → Prop
  | .elements l _ _ _ => ∀ outer, EnteringOnly p l outer start → EnteringOnly p l outer es
  | _ => es = start

include hp in
/-- **Some of the entries, along a run.** They are not those of elements, and the alias of the
    parameter is among them only if nothing writes it. The elements of a loop may leave its variables
    written. -/
theorem run_only {engine : Engine} {task : Task} {s s' : Scope} {out : List String} {js : List Event}
    (h : Run engine task s s' out js)
    (hq : p Literal.valueName = true → Silent engine task s) :
    task.KeepsOnly p (s.bindings.entries.only p) (s'.bindings.entries.only p) := by
  induction h with
  | @literal l s s' text hs =>
    show s'.bindings.entries.only p = s.bindings.entries.only p
    cases hv : p Literal.valueName with
    | true => rw [(hq hv).scan hs]
    | false =>
      rcases Literal.scan_exposed hs with rfl | ⟨v, rfl⟩
      · rfl
      · exact Entries.only_set_other p hv v _
  | skip => rfl
  | hold ht _ ih => exact ih fun hv q ha => hq hv q (.body ht ha)
  | sequence _ ih => exact ih fun hv q ha => hq hv q (.sequence ha)
  | nil => rfl
  | cons ht _ iht ihr =>
    exact Eq.trans (ihr fun hv q ha => hq hv q (.later ht ha))
      (iht fun hv q ha => hq hv q (.child ha))
  | empty => rfl
  | loop he _ ih => exact (ih (fun hv q ha => hq hv q (.loop he ha)) _ (.inl rfl)).leave
  | done => exact fun _ h => h
  | @element l _ _ e _ s m _ _ _ _ _ hb _ ihb ihr =>
    intro outer h
    refine ihr (fun hv q ha => hq hv q (.next hb ha)) outer ?_
    have hm : m.bindings.entries.only p = (l.enter e s).bindings.entries.only p :=
      ihb fun hv q ha => hq hv (q.within ⟨l, e⟩) (.element ha)
    rw [hm]
    exact h.enter hp e

end Only

/-! ## 4. Nothing else is asked -/

section Agreement

variable {engine engine' : Engine}

theorem RenderM.bind_congr_ok {α β : Type} {step step' : RenderM α} {next next' : α → RenderM β}
    {s : Scope} (h : step' s = step s)
    (hn : ∀ a m, step s = .ok a m → next' a m = next a m) :
    (step' >>= next') s = (step >>= next) s := by
  show EStateM.bind step' next' s = EStateM.bind step next s
  unfold EStateM.bind
  rw [h]
  cases hs : step s with
  | ok a m => exact hn a m hs
  | error e m => rfl

/-- Transparent steps that do the same to the bare scope do the same. -/
theorem Transparent.congr {α : Type} {step step' : RenderM α} (ht : Transparent step)
    (ht' : Transparent step') {s : Scope} (h : step' s.bare = step s.bare) : step' s = step s := by
  rw [ht s, ht' s, h]

theorem Literal.substitute_congr {l : Literal} {content : List Char} {s : Scope}
    (h : engine'.evaluate (String.ofList content) (exposeParameter s).bindings =
      engine.evaluate (String.ofList content) (exposeParameter s).bindings) :
    l.substitute engine' content s = l.substitute engine content s := by
  unfold substitute
  refine RenderM.bind_congr_ok rfl fun _ m hm => RenderM.bind_congr_ok rfl fun _ m' hm' => ?_
  obtain ⟨rfl, rfl⟩ := RenderM.get_ok.mp hm'
  rw [RenderM.modify_ok.mp hm, h]

theorem Literal.renderPieces_congr {l : Literal} {ps : List Piece} {s : Scope}
    (h : ∀ content b, l.Asks engine ps s content b →
      engine'.evaluate (String.ofList content) b = engine.evaluate (String.ofList content) b) :
    Delimiters.substitution.renderPieces (l.substitute engine') ps s =
      Delimiters.substitution.renderPieces (l.substitute engine) ps s := by
  induction ps generalizing s with
  | nil => rfl
  | cons p ps ih =>
    have hp : Delimiters.substitution.renderPiece (l.substitute engine') p s =
        Delimiters.substitution.renderPiece (l.substitute engine) p s := by
      cases p with
      | token content =>
        exact RenderM.bind_congr_ok (substitute_congr (h content _ .here)) fun _ _ _ => rfl
      | text => rfl
      | escapedOpen => rfl
      | unterminated => rfl
      | overlap => rfl
    refine RenderM.bind_congr_ok hp fun _ m hm => ?_
    exact RenderM.bind_congr_ok (ih fun content b ha => h content b (.later hm ha)) fun _ _ _ => rfl

/-- Whether engines that agree at the moments of a template render it alike. -/
def HasAgreement (engine engine' : Engine) (t : Template) : Prop :=
  ∀ s : Scope, (∀ q, Asks engine (.template t) s.bare q → q.Agrees engine engine') →
    t.apply engine' s.bare = t.apply engine s.bare

theorem literal_hasAgreement (l : Literal) : HasAgreement engine engine' (.literal l) := by
  intro s h
  refine RenderM.bind_congr_ok ?_ fun _ _ _ => rfl
  exact Literal.renderPieces_congr fun content b ha => h _ (.substitution ha)

theorem conditional_hasAgreement {test : String} {body : Template}
    (hb : HasAgreement engine engine' body) :
    HasAgreement engine engine' (.conditional test body) := by
  intro s h
  have ht : engine'.test test s.bare.bindings = engine.test test s.bare.bindings := h _ .test
  rw [Template.apply, Template.apply]
  unfold Template.applyConditional
  refine RenderM.bind_congr_ok rfl fun _ m hm => ?_
  obtain ⟨rfl, rfl⟩ := RenderM.get_ok.mp hm
  rw [ht]
  refine RenderM.bind_congr_ok rfl fun passed m hm => ?_
  obtain ⟨hpassed, rfl⟩ := RenderM.ofExcept_ok.mp hm
  cases passed with
  | false => rfl
  | true =>
    have hbody := hb s fun q ha => h q (.body hpassed ha)
    refine RenderM.bind_congr_ok ?_ fun _ _ _ => rfl
    unfold RenderM.wrapping
    rw [hbody]

theorem renderElement_congr {l : Loop} {body body' : RenderM Bool} (ht : Transparent body)
    (ht' : Transparent body') {first : Bool} {position : Nat} {e : Element} {s : Scope}
    (h : body' (l.enter e s.bare) = body (l.enter e s.bare)) :
    l.renderElement body' first position e s.bare = l.renderElement body first position e s.bare := by
  have hcover : body' ((l.enter e s.bare).cover (l.elementLayers first s.bare.counter)) =
      body ((l.enter e s.bare).cover (l.elementLayers first s.bare.counter)) := by
    refine ht.congr ht' ?_
    rw [l.enter_bare] at h ⊢
    exact h
  unfold Loop.renderElement
  refine RenderM.bind_congr_ok rfl fun suffix s₁ h₁ => ?_
  cases h₁
  refine RenderM.bind_congr_ok rfl fun _ s₂ h₂ => RenderM.bind_congr_ok rfl fun _ s₃ h₃ => ?_
  have hs : s₃ = l.enter e s.bare := by
    rw [RenderM.modify_ok.mp h₃, RenderM.modify_ok.mp h₂]
    rfl
  subst hs
  refine RenderM.bind_congr_ok ?_ fun _ _ _ => rfl
  unfold RenderM.wrapping RenderM.under
  rw [hcover]

theorem renderElements_congr {l : Loop} {body : Template} (hb : HasAgreement engine engine' body)
    (es : List Element) : ∀ (first : Bool) (position : Nat) (s : Scope),
    (∀ q, Asks engine (.elements l body first es) s.bare q → q.Agrees engine engine') →
    l.renderElements (body.apply engine') first position es s.bare =
      l.renderElements (body.apply engine) first position es s.bare := by
  have ht := body.apply_transparent engine
  have ht' := body.apply_transparent engine'
  induction es with
  | nil => exact fun _ _ _ _ => rfl
  | cons e es ih =>
    intro first position s h
    have hbody : body.apply engine' (l.enter e s.bare) = body.apply engine (l.enter e s.bare) := by
      rw [l.enter_bare]
      refine hb _ fun q ha => ?_
      rw [← l.enter_bare] at ha
      exact h (q.within ⟨l, e⟩) (.element ha)
    refine RenderM.bind_congr_ok (renderElement_congr ht ht' hbody) fun next p hp => ?_
    obtain ⟨r, m, hm, hbare, -, -, rfl⟩ := renderElement_ok ht hp
    rw [l.enter_bare] at hm
    obtain ⟨js, hj⟩ := run_of_apply body (l.enter e s) m r hm
    rw [← l.enter_bare] at hj
    refine (l.renderElements_transparent ht es _ _).congr (l.renderElements_transparent ht' es _ _) ?_
    rw [hbare]
    exact ih _ _ m fun q ha => h q (.next hj ha)

theorem loop_hasAgreement {l : Loop} {body : Template} (hb : HasAgreement engine engine' body) :
    HasAgreement engine engine' (.loop l body) := by
  intro s h
  have he : engine'.elements l.collection s.bare.bindings =
      engine.elements l.collection s.bare.bindings := h _ .collection
  rw [Template.apply, Template.apply]
  unfold Loop.apply
  refine RenderM.bind_congr_ok rfl fun _ m hm => ?_
  obtain ⟨rfl, rfl⟩ := RenderM.get_ok.mp hm
  rw [he]
  refine RenderM.bind_congr_ok rfl fun es m hm => ?_
  obtain ⟨hes, rfl⟩ := RenderM.ofExcept_ok.mp hm
  by_cases hempty : es.isEmpty = true
  · simp only [hempty, ↓reduceIte]
  · simp only [hempty]
    refine RenderM.bind_congr_ok rfl fun _ m hm => ?_
    rw [RenderM.modify_ok.mp hm]
    refine RenderM.bind_congr_ok rfl fun _ m hm => ?_
    obtain ⟨rfl, rfl⟩ := RenderM.get_ok.mp hm
    refine RenderM.bind_congr_ok rfl fun _ m hm => ?_
    obtain ⟨rfl, rfl⟩ := RenderM.get_ok.mp hm
    refine RenderM.bind_congr_ok ?_ fun _ _ _ => rfl
    refine (l.renderElements_transparent (body.apply_transparent engine) es _ _).congr
      (l.renderElements_transparent (body.apply_transparent engine') es _ _) ?_
    have hbare : (Loop.appendText l.opening s.bare).bare = s.bare := by
      rw [Loop.appendText_eq, Scope.appendAll_eq]
      rfl
    rw [hbare]
    exact renderElements_congr hb es true 0 s fun q ha => h q (.loop hes ha)

mutual

/-- Engines that agree at the moments of a template on a bare scope render it alike. -/
theorem apply_hasAgreement : ∀ t : Template, HasAgreement engine engine' t
  | .literal l => literal_hasAgreement l
  | .conditional _ body => conditional_hasAgreement (apply_hasAgreement body)
  | .loop _ body => loop_hasAgreement (apply_hasAgreement body)
  | .sequence children => fun s h => applyAll_agrees children s fun q ha => h q (.sequence ha)

theorem applyAll_agrees : ∀ (ts : List Template) (s : Scope),
    (∀ q, Asks engine (.templates ts) s.bare q → q.Agrees engine engine') →
    Template.applyAll engine' ts s.bare = Template.applyAll engine ts s.bare
  | [], _, _ => rfl
  | t :: ts, s, h => by
    refine RenderM.bind_congr_ok (apply_hasAgreement t s fun q ha => h q (.child ha)) fun r p hp => ?_
    obtain ⟨js, hj⟩ := run_of_apply t s p r hp
    refine (Template.applyAll_transparent engine ts).congr
      (Template.applyAll_transparent engine' ts) ?_
    exact applyAll_agrees ts p fun q ha => h q (.later hj ha)

end

/-- **Nothing else is asked.** Engines that agree at the moments of a render do the same. -/
theorem Template.apply_agrees {t : Template} {s : Scope}
    (h : ∀ q, Asks engine (.template t) s.bare q → q.Agrees engine engine') :
    t.apply engine' s = t.apply engine s :=
  (t.apply_transparent engine).congr (t.apply_transparent engine') (apply_hasAgreement t s h)

end Agreement

end SqlTemplate
