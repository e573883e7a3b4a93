import SqlTemplate.Proofs.DeferredBinding

/-!
# Renders in step

Two renders of one template for two parameters. Their bindings may have nothing in common, but as
long as the answers of the engine steer them in the same way, they append the same fragments.

* `Decision`, `Template.decisions`: what a render decides, in the order in which it does;
* `InStep`: two scopes that differ in their bindings at most;
* `Lockstep`: a step that goes on in step from scopes in step, if it decides the same in both. The
  decisions may be the beginning of longer lists: they tell themselves where they end;
* `Template.apply_lockstep`: rendering a template without substitutions is one;
* `Template.apply_ok_iff`: such a render fails just when its decisions end in a failure;
* `Backend.render_lockstep`: the SQL, the markers up to their types and the refusals of a template
  without substitutions depend on the decisions alone.
-/

namespace SqlTemplate

/-! ## 1. Decisions -/

/-- What a render learns from the engine and acts upon. -/
inductive Decision where
  /-- The test of a conditional has been answered. -/
  | tested (passed : Bool)
  /-- The elements of a collection have been counted. -/
  | counted (size : Nat)
  /-- The engine has failed. -/
  | failed
  deriving DecidableEq, Repr

/-- The decisions in the bodies of elements from `position` on. `inner` are those of the body. -/
def Loop.decisions (l : Loop) (body : RenderM Bool) (inner : Scope → List Decision) :
    Bool → Nat → List Element → Scope → List Decision
  | _, _, [], _ => []
  | first, position, e :: es, s =>
    inner ((l.enter e s).cover (l.elementLayers first s.counter)) ++
      match l.renderElement body first position e s with
      | .ok first s => l.decisions body inner first (position + 1) es s
      | .error _ _ => []

namespace Template

mutual

/-- The decisions of a render that starts in a scope, up to the first failure of the engine. -/
def decisions (engine : Engine) : Template → Scope → List Decision
  | .literal _, _ => []
  | .conditional test body, s =>
    match engine.test test s.bindings with
    | .ok passed => .tested passed :: if passed then decisions engine body s else []
    | .error _ => [.failed]
  | .loop l body, s =>
    match engine.elements l.collection s.bindings with
    | .ok es =>
      .counted es.length ::
        l.decisions (apply engine body) (decisions engine body) true 0 es
          (Loop.appendText l.opening s)
    | .error _ => [.failed]
  | .sequence children, s => allDecisions engine children s

/-- The decisions of templates that are rendered in order. -/
def allDecisions (engine : Engine) : List Template → Scope → List Decision
  | [], _ => []
  | child :: rest, s =>
    decisions engine child s ++
      match apply engine child s with
      | .ok _ s => allDecisions engine rest s
      | .error _ _ => []

end

end Template

/-! ## 2. Scopes in step -/

/-- Whether two scopes are the same but for their bindings. -/
structure InStep (s s' : Scope) : Prop where
  fragments : s'.fragments = s.fragments
  counter : s'.counter = s.counter
  layers : s'.layers = s.layers

namespace InStep

variable {s s' : Scope}

theorem append (h : InStep s s') (fragment : String) :
    InStep (s.append fragment) (s'.append fragment) where
  fragments := by
    show s'.fragments ++ (Layer.passThrough s'.layers [fragment]).2 = _
    rw [h.fragments, h.layers]
    rfl
  counter := h.counter
  layers := by
    show (Layer.passThrough s'.layers [fragment]).1 = _
    rw [h.layers]
    rfl

theorem appendText (h : InStep s s') (text : Option String) :
    InStep (Loop.appendText text s) (Loop.appendText text s') := by
  cases text with
  | none => exact h
  | some text => exact h.append text

theorem cover (h : InStep s s') (layers : List Layer) :
    InStep (s.cover layers) (s'.cover layers) where
  fragments := h.fragments
  counter := h.counter
  layers := congrArg (layers ++ ·) h.layers

theorem uncover (h : InStep s s') (count : Nat) :
    (s'.uncover count).1 = (s.uncover count).1 ∧
      InStep (s.uncover count).2 (s'.uncover count).2 :=
  ⟨congrArg (List.take count) h.layers, h.fragments, h.counter,
    congrArg (List.drop count) h.layers⟩

/-- The elements that two runs enter may have nothing in common. -/
theorem enter (h : InStep s s') (l : Loop) (e e' : Element) : InStep (l.enter e s) (l.enter e' s') := by
  have hcounter := congrArg (· + 1) h.counter
  unfold Loop.enter
  cases l.item with
  | none => cases l.index with
    | none => exact ⟨h.fragments, hcounter, h.layers⟩
    | some i => exact ⟨h.fragments, hcounter, h.layers⟩
  | some x => cases l.index with
    | none => exact ⟨h.fragments, hcounter, h.layers⟩
    | some i => exact ⟨h.fragments, hcounter, h.layers⟩

theorem restore (h : InStep s s') (name : Option String) (before before' : Option Value) :
    InStep (Loop.restore name before s) (Loop.restore name before' s') := by
  cases name with
  | none => exact h
  | some n => cases before with
    | none => cases before' with
      | none => exact ⟨h.fragments, h.counter, h.layers⟩
      | some v' => exact ⟨h.fragments, h.counter, h.layers⟩
    | some v => cases before' with
      | none => exact ⟨h.fragments, h.counter, h.layers⟩
      | some v' => exact ⟨h.fragments, h.counter, h.layers⟩

theorem leave (h : InStep s s') (l : Loop) (before before' : Scope) :
    InStep (l.leave before s) (l.leave before' s') :=
  (h.restore l.item _ _).restore l.index _ _

theorem text (h : InStep s s') : s'.text = s.text := by
  unfold Scope.text
  rw [h.fragments]

end InStep

/-! ## 3. Steps that succeed, forwards -/

section Forwards

variable {engine : Engine} {body : RenderM Bool} {s m : Scope} {r : Bool}

theorem Template.applyConditional_holds {test : String} (ht : engine.test test s.bindings = .ok true)
    (hb : body s = .ok r m) : Template.applyConditional test engine body s = .ok true m := by
  unfold Template.applyConditional
  refine RenderM.bind_ok.mpr ⟨s, s, rfl, RenderM.bind_ok.mpr ⟨true, s, ?_, ?_⟩⟩
  · exact RenderM.ofExcept_ok.mpr ⟨ht, rfl⟩
  · exact RenderM.bind_ok.mpr ⟨r, m, RenderM.wrapping_ok.mpr hb, rfl⟩

theorem Template.applyConditional_skips {test : String}
    (ht : engine.test test s.bindings = .ok false) :
    Template.applyConditional test engine body s = .ok false s := by
  unfold Template.applyConditional
  refine RenderM.bind_ok.mpr ⟨s, s, rfl, RenderM.bind_ok.mpr ⟨false, s, ?_, rfl⟩⟩
  exact RenderM.ofExcept_ok.mpr ⟨ht, rfl⟩

variable {l : Loop} {e : Element} {es : List Element}

theorem Loop.renderElement_of_ok {first : Bool} (position : Nat)
    (hb : body ((l.enter e s).cover (l.elementLayers first s.counter)) = .ok r m) :
    l.renderElement body first position e s =
      .ok (first && !(m.uncover 2).1.any Layer.isApplied) (m.uncover 2).2 := by
  have hu : RenderM.under (l.elementLayers first s.counter) body (l.enter e s) =
      .ok (r, (m.uncover 2).1) (m.uncover 2).2 := by
    unfold RenderM.under
    rw [hb]
    rfl
  unfold Loop.renderElement
  refine RenderM.bind_ok.mpr ⟨s.counter, { s with counter := s.counter + 1 }, rfl, ?_⟩
  refine RenderM.bind_ok.mpr ⟨(), _, rfl, RenderM.bind_ok.mpr ⟨(), l.enter e s, rfl, ?_⟩⟩
  exact RenderM.bind_ok.mpr ⟨_, _, RenderM.wrapping_ok.mpr hu, rfl⟩

theorem Loop.apply_of_empty (he : engine.elements l.collection s.bindings = .ok []) :
    l.apply engine body s = .ok true s := by
  unfold Loop.apply
  refine RenderM.bind_ok.mpr ⟨s, s, rfl, RenderM.bind_ok.mpr ⟨[], s, ?_, rfl⟩⟩
  exact RenderM.ofExcept_ok.mpr ⟨he, rfl⟩

theorem Loop.apply_of_ok (he : engine.elements l.collection s.bindings = .ok (e :: es))
    (hr : l.renderElements body true 0 (e :: es) (appendText l.opening s) = .ok () m) :
    l.apply engine body s = .ok true (l.leave s (appendText l.closing m)) := by
  unfold Loop.apply
  refine RenderM.bind_ok.mpr ⟨s, s, rfl, RenderM.bind_ok.mpr ⟨e :: es, s, ?_, ?_⟩⟩
  · exact RenderM.ofExcept_ok.mpr ⟨he, rfl⟩
  refine RenderM.bind_ok.mpr ⟨(), appendText l.opening s, rfl, ?_⟩
  refine RenderM.bind_ok.mpr ⟨_, _, rfl, RenderM.bind_ok.mpr ⟨_, _, rfl, ?_⟩⟩
  refine RenderM.bind_ok.mpr ⟨(), m, hr, RenderM.bind_ok.mpr ⟨(), _, rfl, ?_⟩⟩
  refine RenderM.bind_ok.mpr ⟨(), _, rfl, RenderM.bind_ok.mpr ⟨(), _, rfl, ?_⟩⟩
  rw [shadowed_appendText, shadowed_appendText]
  rfl

end Forwards

/-! ## 4. Steps in step -/

/-- Whether a step that decides the same in two scopes in step succeeds in both, with the same
    result and in step. What comes after its decisions is not its own. -/
def Lockstep (step : RenderM Bool) (decisions : Scope → List Decision) : Prop :=
  ∀ {s s' : Scope} {ds ds' : List Decision}, InStep s s' →
    Decision.failed ∉ decisions s → Decision.failed ∉ decisions s' →
    decisions s ++ ds = decisions s' ++ ds' →
    ∃ r m m', step s = .ok r m ∧ step s' = .ok r m' ∧ InStep m m' ∧ ds = ds'

section Steps

variable {engine : Engine}

theorem literal_lockstep {l : Literal} (hl : l.isDynamic = false) :
    Lockstep (Template.apply engine (.literal l)) (Template.decisions engine (.literal l)) :=
  fun h _ _ hd => ⟨true, _, _, l.apply_static hl engine _, l.apply_static hl engine _,
    h.append l.staticText, hd⟩

theorem conditional_lockstep {test : String} {body : Template}
    (hb : Lockstep (body.apply engine) (body.decisions engine)) :
    Lockstep (Template.apply engine (.conditional test body))
      (Template.decisions engine (.conditional test body)) := by
  intro s s' ds ds' h hf hf' hd
  rw [Template.decisions] at hf hf' hd
  rw [Template.decisions] at hd
  cases ht : engine.test test s.bindings with
  | error e =>
    rw [ht] at hf
    exact absurd List.mem_cons_self hf
  | ok passed =>
    cases ht' : engine.test test s'.bindings with
    | error e =>
      rw [ht'] at hf'
      exact absurd List.mem_cons_self hf'
    | ok passed' =>
      rw [ht] at hf
      rw [ht'] at hf'
      rw [ht, ht'] at hd
      obtain ⟨hp, hd⟩ := List.cons.inj hd
      obtain rfl := Decision.tested.inj hp
      cases passed with
      | false =>
        exact ⟨false, s, s', Template.applyConditional_skips ht,
          Template.applyConditional_skips ht', h, hd⟩
      | true =>
        obtain ⟨r, m, m', hm, hm', hs, rfl⟩ := hb h (fun hmem => hf (List.mem_cons_of_mem _ hmem))
          (fun hmem => hf' (List.mem_cons_of_mem _ hmem)) hd
        exact ⟨true, m, m', Template.applyConditional_holds ht hm,
          Template.applyConditional_holds ht' hm', hs, rfl⟩

/-- The elements of two runs go in step when there are as many of them in both. -/
theorem renderElements_lockstep {l : Loop} {body : RenderM Bool} {inner : Scope → List Decision}
    (hb : Lockstep body inner) {es es' : List Element} (hlen : es.length = es'.length) {first : Bool}
    {position : Nat} {s s' : Scope} {ds ds' : List Decision} (h : InStep s s')
    (hf : Decision.failed ∉ l.decisions body inner first position es s)
    (hf' : Decision.failed ∉ l.decisions body inner first position es' s')
    (hd : l.decisions body inner first position es s ++ ds =
      l.decisions body inner first position es' s' ++ ds') :
    ∃ m m', l.renderElements body first position es s = .ok () m ∧
      l.renderElements body first position es' s' = .ok () m' ∧ InStep m m' ∧ ds = ds' := by
  induction es generalizing es' first position s s' with
  | nil =>
    cases es' with
    | nil => exact ⟨s, s', rfl, rfl, h, hd⟩
    | cons e' es' => cases hlen
  | cons e es ih =>
    cases es' with
    | nil => cases hlen
    | cons e' es' =>
      rw [Loop.decisions] at hf hf' hd
      rw [Loop.decisions, List.append_assoc, List.append_assoc] at hd
      have hin : InStep ((l.enter e s).cover (l.elementLayers first s.counter))
          ((l.enter e' s').cover (l.elementLayers first s'.counter)) := by
        rw [h.counter]
        exact (h.enter l e e').cover _
      -- the body decides the same, and what it leaves over is decided by the other elements
      obtain ⟨r, m, m', hm, hm', hs, htail⟩ :=
        hb hin (fun hmem => hf (List.mem_append_left _ hmem))
          (fun hmem => hf' (List.mem_append_left _ hmem)) hd
      have hone := Loop.renderElement_of_ok position hm
      have hone' := Loop.renderElement_of_ok position hm'
      obtain ⟨hlaid, hout⟩ := hs.uncover 2
      rw [hlaid] at hone'
      rw [hone] at hf htail
      rw [hone'] at hf' htail
      obtain ⟨p, p', hp, hp', hps, hds⟩ := ih (Nat.succ.inj hlen) hout
        (fun hmem => hf (List.mem_append_right _ hmem))
        (fun hmem => hf' (List.mem_append_right _ hmem)) htail
      exact ⟨p, p', RenderM.bind_ok.mpr ⟨_, _, hone, hp⟩,
        RenderM.bind_ok.mpr ⟨_, _, hone', hp'⟩, hps, hds⟩

theorem loop_lockstep {l : Loop} {body : Template}
    (hb : Lockstep (body.apply engine) (body.decisions engine)) :
    Lockstep (Template.apply engine (.loop l body)) (Template.decisions engine (.loop l body)) := by
  intro s s' ds ds' h hf hf' hd
  rw [Template.decisions] at hf hf' hd
  rw [Template.decisions] at hd
  cases he : engine.elements l.collection s.bindings with
  | error e =>
    rw [he] at hf
    exact absurd List.mem_cons_self hf
  | ok es =>
    cases he' : engine.elements l.collection s'.bindings with
    | error e =>
      rw [he'] at hf'
      exact absurd List.mem_cons_self hf'
    | ok es' =>
      rw [he] at hf
      rw [he'] at hf'
      rw [he, he'] at hd
      obtain ⟨hc, hd⟩ := List.cons.inj hd
      have hlen := Decision.counted.inj hc
      cases es with
      | nil =>
        obtain rfl := List.eq_nil_of_length_eq_zero hlen.symm
        exact ⟨true, s, s', Loop.apply_of_empty he, Loop.apply_of_empty he', h, hd⟩
      | cons e es =>
        cases es' with
        | nil => cases hlen
        | cons e' es' =>
          obtain ⟨m, m', hm, hm', hs, rfl⟩ := renderElements_lockstep hb hlen
            (h.appendText l.opening) (fun hmem => hf (List.mem_cons_of_mem _ hmem))
            (fun hmem => hf' (List.mem_cons_of_mem _ hmem)) hd
          exact ⟨true, _, _, Loop.apply_of_ok he hm, Loop.apply_of_ok he' hm',
            (hs.appendText l.closing).leave l s s', rfl⟩

theorem cons_lockstep {child : Template} {rest : List Template}
    (hc : Lockstep (child.apply engine) (child.decisions engine))
    (hr : Lockstep (Template.applyAll engine rest) (Template.allDecisions engine rest)) :
    Lockstep (Template.applyAll engine (child :: rest))
      (Template.allDecisions engine (child :: rest)) := by
  intro s s' ds ds' h hf hf' hd
  rw [Template.allDecisions] at hf hf' hd
  rw [Template.allDecisions, List.append_assoc, List.append_assoc] at hd
  obtain ⟨r, m, m', hm, hm', hs, htail⟩ := hc h (fun hmem => hf (List.mem_append_left _ hmem))
    (fun hmem => hf' (List.mem_append_left _ hmem)) hd
  rw [hm] at hf htail
  rw [hm'] at hf' htail
  obtain ⟨q, p, p', hp, hp', hps, hds⟩ := hr hs (fun hmem => hf (List.mem_append_right _ hmem))
    (fun hmem => hf' (List.mem_append_right _ hmem)) htail
  exact ⟨q, p, p', RenderM.bind_ok.mpr ⟨_, _, hm, hp⟩, RenderM.bind_ok.mpr ⟨_, _, hm', hp'⟩, hps,
    hds⟩

end Steps

namespace Template

mutual

/-- **Rendering a template without substitutions goes in step** as long as the decisions are the
    same. -/
theorem apply_lockstep (engine : Engine) : ∀ t : Template,
    (∀ l ∈ t.literals, l.isDynamic = false) → Lockstep (t.apply engine) (t.decisions engine)
  | .literal l, hl => literal_lockstep (hl l List.mem_cons_self)
  | .conditional _ body, hl => conditional_lockstep (apply_lockstep engine body hl)
  | .loop _ body, hl => loop_lockstep (apply_lockstep engine body hl)
  | .sequence children, hl => applyAll_lockstep engine children hl

theorem applyAll_lockstep (engine : Engine) : ∀ ts : List Template,
    (∀ l ∈ allLiterals ts, l.isDynamic = false) →
      Lockstep (applyAll engine ts) (allDecisions engine ts)
  | [], _ => fun h _ _ hd => ⟨true, _, _, rfl, rfl, h, hd⟩
  | child :: rest, hl =>
    cons_lockstep (apply_lockstep engine child fun l hmem => hl l (List.mem_append_left _ hmem))
      (applyAll_lockstep engine rest fun l hmem => hl l (List.mem_append_right _ hmem))

end

end Template

/-! ## 5. Failures of the engine -/

section Failures

variable {engine : Engine}

/-- Whether a step that succeeds has met no failure of the engine. -/
def Unfailing (step : RenderM Bool) (decisions : Scope → List Decision) : Prop :=
  ∀ {s m : Scope} {r : Bool}, step s = .ok r m → Decision.failed ∉ decisions s

theorem conditional_unfailing {test : String} {body : Template}
    (hb : Unfailing (body.apply engine) (body.decisions engine)) :
    Unfailing (Template.apply engine (.conditional test body))
      (Template.decisions engine (.conditional test body)) := by
  intro s m r h
  rw [Template.apply] at h
  unfold Template.applyConditional at h
  obtain ⟨_, _, h₁, h₂⟩ := RenderM.bind_ok.mp h
  obtain ⟨rfl, rfl⟩ := RenderM.get_ok.mp h₁
  obtain ⟨passed, _, h₃, h₄⟩ := RenderM.bind_ok.mp h₂
  obtain ⟨ht, rfl⟩ := RenderM.ofExcept_ok.mp h₃
  rw [Template.decisions, ht]
  cases passed with
  | false => exact List.not_mem_cons_of_ne_of_not_mem (by decide) List.not_mem_nil
  | true =>
    obtain ⟨_, _, h₅, -⟩ := RenderM.bind_ok.mp h₄
    exact List.not_mem_cons_of_ne_of_not_mem (by decide) (hb (RenderM.wrapping_ok.mp h₅))

/-- The body of an element that is rendered is rendered under its layers. -/
theorem Loop.body_of_renderElement {l : Loop} {body : RenderM Bool} {first next : Bool}
    {position : Nat} {e : Element} {s p : Scope}
    (h : l.renderElement body first position e s = .ok next p) :
    ∃ r m, body ((l.enter e s).cover (l.elementLayers first s.counter)) = .ok r m := by
  unfold Loop.renderElement at h
  obtain ⟨_, _, h₁, h₂⟩ := RenderM.bind_ok.mp h
  cases h₁
  obtain ⟨_, _, h₃, h₄⟩ := RenderM.bind_ok.mp h₂
  obtain rfl := RenderM.modify_ok.mp h₃
  obtain ⟨_, _, h₅, h₆⟩ := RenderM.bind_ok.mp h₄
  obtain rfl := RenderM.modify_ok.mp h₅
  obtain ⟨laid, q, h₇, -⟩ := RenderM.bind_ok.mp h₆
  have hu : RenderM.under (l.elementLayers first s.counter) body (l.enter e s) = .ok laid q :=
    RenderM.wrapping_ok.mp h₇
  unfold RenderM.under at hu
  cases hb : body ((l.enter e s).cover (l.elementLayers first s.counter)) with
  | ok r m => exact ⟨r, m, rfl⟩
  | error err m =>
    rw [hb] at hu
    cases hu

theorem renderElements_unfailing {l : Loop} {body : RenderM Bool} {inner : Scope → List Decision}
    (hb : Unfailing body inner) (es : List Element) {first : Bool} {position : Nat} {s m : Scope}
    (h : l.renderElements body first position es s = .ok () m) :
    Decision.failed ∉ l.decisions body inner first position es s := by
  induction es generalizing first position s with
  | nil => exact List.not_mem_nil
  | cons e es ih =>
    obtain ⟨next, p, h₁, h₂⟩ := RenderM.bind_ok.mp h
    obtain ⟨r, q, hq⟩ := Loop.body_of_renderElement h₁
    rw [Loop.decisions, h₁]
    exact fun hmem => (List.mem_append.mp hmem).elim (hb hq) (ih h₂)

theorem loop_unfailing {l : Loop} {body : Template}
    (hb : Unfailing (body.apply engine) (body.decisions engine)) :
    Unfailing (Template.apply engine (.loop l body)) (Template.decisions engine (.loop l body)) := by
  intro s m r h
  rw [Template.apply] at h
  rw [Template.decisions]
  rcases l.apply_ok h with ⟨he, -⟩ | ⟨e, es, p, he, hp, -⟩
  · rw [he]
    exact List.not_mem_cons_of_ne_of_not_mem (by decide) List.not_mem_nil
  · rw [he]
    exact List.not_mem_cons_of_ne_of_not_mem (fun h => by cases h)
      (renderElements_unfailing hb _ hp)

namespace Template

mutual

theorem apply_unfailing (engine : Engine) : ∀ t : Template,
    Unfailing (t.apply engine) (t.decisions engine)
  | .literal _ => fun _ => List.not_mem_nil
  | .conditional _ body => conditional_unfailing (apply_unfailing engine body)
  | .loop _ body => loop_unfailing (apply_unfailing engine body)
  | .sequence children => applyAll_unfailing engine children

theorem applyAll_unfailing (engine : Engine) : ∀ ts : List Template,
    Unfailing (applyAll engine ts) (allDecisions engine ts)
  | [] => fun _ => List.not_mem_nil
  | child :: rest => by
    intro h
    obtain ⟨_, p, h₁, h₂⟩ := RenderM.bind_ok.mp h
    rw [allDecisions, h₁]
    exact fun hmem => (List.mem_append.mp hmem).elim (apply_unfailing engine child h₁)
      (applyAll_unfailing engine rest h₂)

end

/-- **A template without substitutions fails to render just when the engine fails** at one of its
    tests or collections. -/
theorem apply_ok_iff {engine : Engine} {t : Template} (hl : ∀ l ∈ t.literals, l.isDynamic = false)
    (s : Scope) : (∃ r m, t.apply engine s = .ok r m) ↔ Decision.failed ∉ t.decisions engine s := by
  refine ⟨fun ⟨r, m, h⟩ => t.apply_unfailing engine h, fun hf => ?_⟩
  have same : InStep s s := ⟨rfl, rfl, rfl⟩
  have hd : t.decisions engine s ++ [] = t.decisions engine s ++ [] := rfl
  obtain ⟨r, m, -, h, -⟩ := t.apply_lockstep engine hl same hf hf hd
  exact ⟨r, m, h⟩

end Template

end Failures

/-! ## 6. Queries -/

/-- Whether two outcomes are queries that differ in their bindings and in the types of their markers
    at most, or the same refusal of a placeholder. -/
inductive SameStatement : Except RenderError Query → Except RenderError Query → Prop where
  | rendered {q q' : Query} (hs : q'.sql = q.sql)
      (hm : q'.markers.map Marker.untyped = q.markers.map Marker.untyped) :
      SameStatement (.ok q) (.ok q')
  | refused {content : String} {reason : Placeholder.Reason} :
      SameStatement (.error (.placeholder content reason)) (.error (.placeholder content reason))

/-- The only failure of a finalization is the refusal of a placeholder. -/
theorem ofContents_error {bindings : Bindings} {contents : List (List Char)} {e : RenderError}
    (h : ofContents bindings contents = .error e) :
    ∃ content reason, e = .placeholder content reason := by
  induction contents with
  | nil => cases h
  | cons content rest ih =>
    rw [ofContents_cons] at h
    cases hm : Marker.ofContent content bindings with
    | error e' =>
      rw [hm] at h
      cases h
      unfold Marker.ofContent at hm
      split at hm
      · cases hm
      · cases hm
        exact ⟨_, _, rfl⟩
    | ok m =>
      cases ho : ofContents bindings rest with
      | error e' =>
        rw [hm, ho] at h
        cases h
        exact ih ho
      | ok others =>
        rw [hm, ho] at h
        cases h

/-- A text is the same statement under all bindings. -/
theorem sameStatement_finalize (style : MarkerStyle) (text : String) (b b' : Bindings) :
    SameStatement (Query.finalize style text b) (Query.finalize style text b') := by
  have hu := ofContents_untyped (Delimiters.bind.contents text.toList) b b'
  rw [Query.finalize_eq, Query.finalize_eq]
  cases hb : ofContents b (Delimiters.bind.contents text.toList) with
  | error e =>
    cases hb' : ofContents b' (Delimiters.bind.contents text.toList) with
    | error e' =>
      rw [hb, hb'] at hu
      cases hu
      obtain ⟨content, reason, rfl⟩ := ofContents_error hb
      exact .refused
    | ok ms' =>
      rw [hb, hb'] at hu
      cases hu
  | ok ms =>
    cases hb' : ofContents b' (Delimiters.bind.contents text.toList) with
    | error e' =>
      rw [hb, hb'] at hu
      cases hu
    | ok ms' =>
      rw [hb, hb'] at hu
      exact .rendered rfl (Except.ok.inj hu).symm

/-- **Bound values cannot influence the SQL.** When the decisions of two renders of a template
    without substitutions are the same and the engine does not fail, both make the same SQL with
    the same markers up to the types of their values, or both refuse the same placeholder. The
    parameters, the ways of reading them and everything that loops bind may differ. -/
theorem Backend.render_lockstep {b : Backend} {t : Template}
    (hl : ∀ l ∈ t.literals, l.isDynamic = false) {parameter parameter' : Value}
    {accessor accessor' : Option Accessor}
    (hd : t.decisions b.engine (.ofBindings (b.bindingsFor parameter accessor)) =
      t.decisions b.engine (.ofBindings (b.bindingsFor parameter' accessor')))
    (hf : Decision.failed ∉
      t.decisions b.engine (.ofBindings (b.bindingsFor parameter accessor))) :
    SameStatement (b.render t parameter accessor) (b.render t parameter' accessor') := by
  have h : InStep (.ofBindings (b.bindingsFor parameter accessor))
      (.ofBindings (b.bindingsFor parameter' accessor')) := ⟨rfl, rfl, rfl⟩
  obtain ⟨r, m, m', hm, hm', hs, -⟩ := t.apply_lockstep b.engine hl h hf (hd ▸ hf)
    (congrArg (· ++ []) hd)
  unfold Backend.render Backend.renderScope
  rw [hm, hm']
  show SameStatement (Query.finalize _ m.text m.bindings) (Query.finalize _ m'.text m'.bindings)
  rw [hs.text]
  exact sameStatement_finalize _ _ _ _

/-- A conditional, and a loop over rows that leaves the empty ones out. -/
def rowSearch : Template :=
  .sequence [.ofText "a = #{a:INTEGER}", .conditional "flag" (.ofText "AND b = #{b}"),
    .loop { collection := "rows", item := some "x", separator := some "," }
      (.conditional "x" (.ofText "#{x}"))]

/-- A flag and rows. -/
def rowParameter (flag : Value) (rows : List Value) : Value :=
  .map [(.str "flag", flag), (.str "rows", .seq rows)]

/-- Two parameters with different flags and rows that decide the same. -/
theorem rowSearch_lockstep :
    (∀ l ∈ rowSearch.literals, l.isDynamic = false) ∧
      SameStatement
        (Backend.render { engine := .names } rowSearch
          (rowParameter (.bool true) [.int 1, .null, .int 3]) none)
        (Backend.render { engine := .names } rowSearch
          (rowParameter (.int 7) [.str "a", .bool false, .seq []]) none) := by
  have hl : ∀ l ∈ rowSearch.literals, l.isDynamic = false := by
    intro l hmem
    rcases List.mem_cons.mp hmem with rfl | hmem
    · decide +kernel
    rcases List.mem_cons.mp hmem with rfl | hmem
    · decide +kernel
    rw [List.mem_singleton.mp hmem]
    decide +kernel
  exact ⟨hl, Backend.render_lockstep hl (by decide +kernel) (by decide +kernel)⟩

end SqlTemplate
