import SqlTemplate.Proofs.Entries

/-!
# Layers over a scope

A loop renders its elements under layers, and loops inside loops pile them up. This file shows
that layers only change the fragments on their way in:

* `Layer.passThrough_append`: fragments pass one after the other or all at once;
* `Scope.bare`: a scope without layers and without fragments that has the bindings and the counter
  of another one;
* `Scope.onto`: what becomes of a scope when a step on its bare scope is carried over to it;
* `Transparent`: a step does to a scope what it does to the bare scope, and its fragments go
  through the layers;
* `Template.apply_transparent`: rendering is transparent, whatever layers there are.
-/

namespace SqlTemplate

/-! ## 1. Passing fragments -/

namespace Layer

theorem passAll_append (layer : Layer) (xs ys : List String) :
    layer.passAll (xs ++ ys) =
      (((layer.passAll xs).1.passAll ys).1,
        (layer.passAll xs).2 ++ ((layer.passAll xs).1.passAll ys).2) := by
  induction xs generalizing layer with
  | nil => rfl
  | cons x xs ih => simp only [List.cons_append, passAll, ih, List.append_assoc]

theorem passThrough_append (layers : List Layer) (xs ys : List String) :
    passThrough layers (xs ++ ys) =
      ((passThrough (passThrough layers xs).1 ys).1,
        (passThrough layers xs).2 ++ (passThrough (passThrough layers xs).1 ys).2) := by
  induction layers generalizing xs ys with
  | nil => rfl
  | cons layer rest ih => simp only [passThrough, passAll_append, ih]

@[simp] theorem passThrough_nil (layers : List Layer) : passThrough layers [] = (layers, []) := by
  induction layers with
  | nil => rfl
  | cons layer rest ih => simp only [passThrough, passAll, ih]

@[simp] theorem nil_passThrough (fragments : List String) :
    passThrough [] fragments = ([], fragments) := rfl

/-- Layers that lie over layers: what comes out of the upper ones goes through the lower ones. -/
theorem append_passThrough (upper lower : List Layer) (fragments : List String) :
    passThrough (upper ++ lower) fragments =
      ((passThrough upper fragments).1 ++ (passThrough lower (passThrough upper fragments).2).1,
        (passThrough lower (passThrough upper fragments).2).2) := by
  induction upper generalizing fragments with
  | nil => rfl
  | cons layer rest ih => simp only [List.cons_append, passThrough, ih]

@[simp] theorem length_passThrough (layers : List Layer) (fragments : List String) :
    (passThrough layers fragments).1.length = layers.length := by
  induction layers generalizing fragments with
  | nil => rfl
  | cons layer rest ih => simp only [passThrough, List.length_cons, ih]

end Layer

/-! ## 2. Bare scopes -/

namespace Scope

/-- The bindings and the counter of a scope, without its fragments and layers. -/
def bare (s : Scope) : Scope := { bindings := s.bindings, counter := s.counter }

/-- Appends fragments one after the other. -/
def appendAll : List String → Scope → Scope
  | [], s => s
  | fragment :: rest, s => appendAll rest (s.append fragment)

/-- What a scope becomes when another one takes its bindings and its counter further and hands its
    fragments in. -/
def receive (s p : Scope) : Scope :=
  { s.appendAll p.fragments with bindings := p.bindings, counter := p.counter }

/-- Carries the outcome of a step over to a scope. -/
def onto {α : Type} (s : Scope) :
    EStateM.Result RenderError Scope α → EStateM.Result RenderError Scope α
  | .ok a p => .ok a (s.receive p)
  | .error e p => .error e (s.receive p)

@[simp] theorem bare_bindings (s : Scope) : s.bare.bindings = s.bindings := rfl

@[simp] theorem bare_counter (s : Scope) : s.bare.counter = s.counter := rfl

@[simp] theorem bare_fragments (s : Scope) : s.bare.fragments = [] := rfl

@[simp] theorem bare_layers (s : Scope) : s.bare.layers = [] := rfl

@[simp] theorem bare_bare (s : Scope) : s.bare.bare = s.bare := rfl

/-- All fragments at once: they pass through the layers in order. -/
theorem appendAll_eq (fragments : List String) (s : Scope) :
    s.appendAll fragments =
      { s with
        layers := (Layer.passThrough s.layers fragments).1
        fragments := s.fragments ++ (Layer.passThrough s.layers fragments).2 } := by
  induction fragments generalizing s with
  | nil => simp only [appendAll, Layer.passThrough_nil, List.append_nil]
  | cons fragment rest ih =>
    have h := Layer.passThrough_append s.layers [fragment] rest
    rw [List.singleton_append] at h
    rw [appendAll, ih, h]
    simp only [append, List.append_assoc]

theorem appendAll_append (xs ys : List String) (s : Scope) :
    s.appendAll (xs ++ ys) = (s.appendAll xs).appendAll ys := by
  induction xs generalizing s with
  | nil => rfl
  | cons x xs ih => exact ih (s.append x)

@[simp] theorem receive_bindings (s p : Scope) : (s.receive p).bindings = p.bindings := rfl

@[simp] theorem receive_counter (s p : Scope) : (s.receive p).counter = p.counter := rfl

@[simp] theorem receive_bare (s p : Scope) : (s.receive p).bare = p.bare := rfl

theorem receive_layers (s p : Scope) :
    (s.receive p).layers = (Layer.passThrough s.layers p.fragments).1 := by
  simp only [receive, appendAll_eq]

theorem receive_fragments (s p : Scope) :
    (s.receive p).fragments = s.fragments ++ (Layer.passThrough s.layers p.fragments).2 := by
  simp only [receive, appendAll_eq]

/-- Two scopes with equal parts are equal. -/
theorem eq_of_parts {s t : Scope} (hb : s.bindings = t.bindings) (hf : s.fragments = t.fragments)
    (hc : s.counter = t.counter) (hl : s.layers = t.layers) : s = t := by
  cases s
  cases t
  cases hb
  cases hf
  cases hc
  cases hl
  rfl

/-- A scope is what it receives from its bare scope. -/
@[simp] theorem receive_self (s : Scope) : s.receive s.bare = s := rfl

/-- Receiving through a scope without layers is receiving at once. -/
theorem receive_receive (s p q : Scope) (hp : p.layers = []) :
    s.receive (p.receive q) = (s.receive p).receive q := by
  have hq : (p.receive q).fragments = p.fragments ++ q.fragments := by
    rw [receive_fragments, hp, Layer.nil_passThrough]
  refine eq_of_parts rfl ?_ rfl ?_
  · rw [receive_fragments, hq, Layer.passThrough_append, receive_fragments, receive_fragments,
      receive_layers, List.append_assoc]
  · rw [receive_layers, hq, Layer.passThrough_append, receive_layers, receive_layers]

/-- The bare scope adds nothing on the way. -/
theorem receive_bare_receive (s q : Scope) : s.receive (s.bare.receive q) = s.receive q :=
  receive_receive s s.bare q rfl

end Scope

/-! ## 3. Transparent steps -/

/-- A step of a render is transparent when layers and earlier fragments do not take part in it:
    it is the step on the bare scope, carried over. -/
def Transparent {α : Type} (step : RenderM α) : Prop :=
  ∀ s : Scope, step s = s.onto (step s.bare)

namespace Transparent

open Scope

variable {α β : Type}

/-- A transparent step on a bare scope lays no layers. -/
theorem layers_eq {step : RenderM α} (h : Transparent step) (s : Scope) :
    match step s.bare with
    | .ok _ p => p.layers = []
    | .error _ p => p.layers = [] := by
  have hs := h s.bare
  rw [bare_bare] at hs
  cases hp : step s.bare with
  | ok a p =>
    rw [hp] at hs
    have e : p = s.bare.receive p := by
      simp only [onto, EStateM.Result.ok.injEq, true_and] at hs
      exact hs
    show p.layers = []
    rw [e, receive_layers, bare_layers, Layer.nil_passThrough]
  | error e p =>
    rw [hp] at hs
    have e : p = s.bare.receive p := by
      simp only [onto, EStateM.Result.error.injEq, true_and] at hs
      exact hs
    show p.layers = []
    rw [e, receive_layers, bare_layers, Layer.nil_passThrough]

theorem pure (a : α) : Transparent (pure a : RenderM α) := fun _ => rfl

theorem throw (e : RenderError) : Transparent (throw e : RenderM α) := fun _ => rfl

theorem ofExcept (x : Except RenderError α) : Transparent (RenderM.ofExcept x) := by
  cases x with
  | ok a => exact pure a
  | error e => exact throw e

theorem bind {step : RenderM α} {next : α → RenderM β} (h : Transparent step)
    (hn : ∀ a, Transparent (next a)) : Transparent (step >>= next) := by
  intro s
  show EStateM.bind step next s = s.onto (EStateM.bind step next s.bare)
  have hl := h.layers_eq s
  unfold EStateM.bind
  rw [h s]
  cases hp : step s.bare with
  | ok a p =>
    rw [hp] at hl
    show next a (s.receive p) = s.onto (next a p)
    rw [hn a (s.receive p), hn a p, receive_bare]
    cases next a p.bare with
    | ok b q => exact congrArg _ (receive_receive s p q hl).symm
    | error e q => exact congrArg _ (receive_receive s p q hl).symm
  | error e p => rfl

/-- A step may look at the bindings and at the counter. -/
theorem get {next : Scope → RenderM α} (hn : ∀ s, next s = next s.bare)
    (h : ∀ s, Transparent (next s)) : Transparent (get >>= next) := by
  intro s
  show next s s = s.onto (next s.bare s.bare)
  rw [hn s]
  exact h s.bare s

theorem modify {change : Scope → Scope} (h : ∀ s, change s = s.receive (change s.bare)) :
    Transparent (modify change) := by
  intro s
  show EStateM.Result.ok PUnit.unit (change s) = .ok PUnit.unit (s.receive (change s.bare))
  rw [← h s]

theorem wrapping {step : RenderM α} (wrap : RenderError → RenderError) (h : Transparent step) :
    Transparent (RenderM.wrapping wrap step) := by
  intro s
  unfold RenderM.wrapping
  rw [h s]
  cases step s.bare with
  | ok a p => rfl
  | error e p => rfl

/-- Layers taken off again: the scope below receives what has come through them. -/
theorem uncover_receive (layers : List Layer) (s p : Scope) :
    ((s.cover layers).receive p).uncover layers.length =
      ((Layer.passThrough layers p.fragments).1,
        s.receive { p with fragments := (Layer.passThrough layers p.fragments).2 }) := by
  have hl : ((s.cover layers).receive p).layers = (Layer.passThrough layers p.fragments).1 ++
      (Layer.passThrough s.layers (Layer.passThrough layers p.fragments).2).1 := by
    rw [receive_layers]
    show (Layer.passThrough (layers ++ s.layers) p.fragments).1 = _
    rw [Layer.append_passThrough]
  have hn := Layer.length_passThrough layers p.fragments
  unfold uncover
  rw [hl, ← hn, List.take_left, List.drop_left]
  refine congrArg (Prod.mk _) (eq_of_parts rfl ?_ rfl ?_)
  · show ((s.cover layers).receive p).fragments = _
    rw [receive_fragments, receive_fragments]
    show s.fragments ++ (Layer.passThrough (layers ++ s.layers) p.fragments).2 = _
    rw [Layer.append_passThrough]
  · rw [receive_layers]

theorem under {step : RenderM α} (layers : List Layer) (h : Transparent step) :
    Transparent (RenderM.under layers step) := by
  intro s
  have hs : step (s.cover layers) = (s.cover layers).onto (step s.bare) := h (s.cover layers)
  have hb : step (s.bare.cover layers) = (s.bare.cover layers).onto (step s.bare) :=
    h (s.bare.cover layers)
  unfold RenderM.under
  rw [hs, hb]
  cases step s.bare with
  | ok a p => simp only [onto, uncover_receive, receive_bare_receive]
  | error e p => simp only [onto, uncover_receive, receive_bare_receive]

end Transparent

/-! ## 4. Rendering is transparent -/

namespace Scope

/-- Appending to a bare scope leaves the fragment as it is. -/
theorem append_receive (fragment : String) (s : Scope) :
    s.append fragment = s.receive (s.bare.append fragment) := rfl

end Scope

namespace Literal

theorem exposeParameter_receive (s : Scope) :
    exposeParameter s = s.receive (exposeParameter s.bare) := by
  have hb : s.bare.bindings = s.bindings := rfl
  cases h : s.bindings.exposed? with
  | none =>
    rw [exposeParameter_none h, exposeParameter_none (hb ▸ h)]
    rfl
  | some v =>
    rw [exposeParameter_some h, exposeParameter_some (hb ▸ h)]
    rfl

theorem substitute_transparent (l : Literal) (engine : Engine) (content : List Char) :
    Transparent (l.substitute engine content) := by
  unfold substitute
  refine .bind (.modify exposeParameter_receive) fun _ => .get (fun _ => rfl) fun s => ?_
  refine .bind (.ofExcept _) fun v => .bind (.ofExcept _) fun _ => .pure _

theorem renderPieces_transparent (l : Literal) (engine : Engine) (pieces : List Piece) :
    Transparent (Delimiters.substitution.renderPieces (l.substitute engine) pieces) := by
  have piece (p : Piece) :
      Transparent (Delimiters.substitution.renderPiece (l.substitute engine) p) := by
    cases p with
    | token content =>
      refine .bind (substitute_transparent l engine content) fun replacement => ?_
      cases replacement with
      | some text => exact .pure _
      | none => exact .pure _
    | text cs => exact .pure _
    | escapedOpen => exact .pure _
    | unterminated cs => exact .pure _
    | overlap => exact .pure _
  induction pieces with
  | nil => exact .pure _
  | cons p rest ih => exact .bind (piece p) fun _ => .bind ih fun _ => .pure _

theorem apply_transparent (l : Literal) (engine : Engine) : Transparent (l.apply engine) :=
  .bind (renderPieces_transparent l engine _) fun _ =>
    .bind (.modify (Scope.append_receive _)) fun _ => .pure _

end Literal

namespace Loop

theorem bindVariable_receive (name : Option String) (suffix : Nat) (v : Value) (s : Scope) :
    bindVariable name suffix v s = s.receive (bindVariable name suffix v s.bare) := by
  cases name with
  | none => rfl
  | some name => rfl

theorem restore_receive (name : Option String) (before : Option Value) (s p : Scope) :
    restore name before (s.receive p) = s.receive (restore name before p) := by
  cases name with
  | none => rfl
  | some name =>
    cases before with
    | none => rfl
    | some v => rfl

theorem appendText_receive (text : Option String) (s : Scope) :
    appendText text s = s.receive (appendText text s.bare) := by
  cases text with
  | none => rfl
  | some text => rfl

theorem renderElement_transparent (l : Loop) {body : RenderM Bool} (h : Transparent body)
    (first : Bool) (position : Nat) (element : Element) :
    Transparent (l.renderElement body first position element) := by
  have hid : Transparent (modifyGet Scope.nextId : RenderM Nat) := fun _ => rfl
  refine .bind hid fun suffix => ?_
  refine .bind (.modify (bindVariable_receive _ _ _)) fun _ => ?_
  refine .bind (.modify (bindVariable_receive _ _ _)) fun _ => ?_
  exact .bind (.wrapping _ (.under _ h)) fun _ => .pure _

theorem renderElements_transparent (l : Loop) {body : RenderM Bool} (h : Transparent body)
    (elements : List Element) (first : Bool) (position : Nat) :
    Transparent (l.renderElements body first position elements) := by
  induction elements generalizing first position with
  | nil => exact .pure _
  | cons element rest ih =>
    exact .bind (renderElement_transparent l h _ _ _) fun first => ih first (position + 1)

theorem apply_transparent (l : Loop) (engine : Engine) {body : RenderM Bool}
    (h : Transparent body) : Transparent (l.apply engine body) := by
  unfold apply
  refine .get (fun _ => rfl) fun s => .bind (.ofExcept _) fun elements => ?_
  split
  · exact .pure _
  · refine .bind (.modify (appendText_receive _)) fun _ => ?_
    refine .get (fun _ => rfl) fun _ => .get (fun _ => rfl) fun _ => ?_
    refine .bind (renderElements_transparent l h _ _ _) fun _ => ?_
    refine .bind (.modify (appendText_receive _)) fun _ => ?_
    refine .bind (.modify fun s => restore_receive _ _ s s.bare) fun _ => ?_
    exact .bind (.modify fun s => restore_receive _ _ s s.bare) fun _ => .pure _

end Loop

namespace Template

theorem applyConditional_transparent (test : String) (engine : Engine) {body : RenderM Bool}
    (h : Transparent body) : Transparent (applyConditional test engine body) := by
  unfold applyConditional
  refine .get (fun _ => rfl) fun s => .bind (.ofExcept _) fun passed => ?_
  split
  · exact .bind (.wrapping _ h) fun _ => .pure _
  · exact .pure _

mutual

/-- **Rendering a template is transparent**: what it returns and what it does to the bindings and
    to the counter do not depend on the layers, and its fragments are those of the bare scope,
    passed through the layers. -/
theorem apply_transparent (engine : Engine) : ∀ t : Template, Transparent (t.apply engine)
  | .literal l => l.apply_transparent engine
  | .conditional test body =>
    applyConditional_transparent test engine (apply_transparent engine body)
  | .loop l body => l.apply_transparent engine (apply_transparent engine body)
  | .sequence children => applyAll_transparent engine children

theorem applyAll_transparent (engine : Engine) :
    ∀ children : List Template, Transparent (applyAll engine children)
  | [] => .pure true
  | child :: rest =>
    .bind (apply_transparent engine child) fun _ => applyAll_transparent engine rest

end

end Template

end SqlTemplate
