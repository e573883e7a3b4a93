import SqlTemplate.Statement
import SqlTemplate.Proofs.Finalize
import SqlTemplate.Proofs.Layers

/-!
# Static templates

A statement without dynamic parts is rendered once per style of markers, without a parameter, and
the outcome serves every later call. This file shows that nobody can tell.

* `Template.apply_static`: a static template appends the same fragments whatever the engine and the
  bindings are, and touches nothing else;
* `Statement.Honest`: every prepared form is a render of the text, under some bindings;
* `Statement.render_agrees`: whatever calls came before, a call has the outcome of a full render.
-/

namespace SqlTemplate

/-! ## 1. Rendering static templates -/

/-- The text of a literal without substitutions. -/
def Literal.staticText (l : Literal) : String :=
  String.ofList ((Delimiters.substitution.pieces l.text.toList).flatMap
    (Delimiters.substitution.fill id))

namespace Template

mutual

/-- The fragments of a static template. -/
def staticFragments : Template → List String
  | .literal l => [l.staticText]
  | .conditional _ _ => []
  | .loop _ _ => []
  | .sequence children => allStaticFragments children

/-- The fragments of static templates. -/
def allStaticFragments : List Template → List String
  | [] => []
  | child :: rest => staticFragments child ++ allStaticFragments rest

end

end Template

theorem Literal.scan_static {l : Literal} (h : l.isDynamic = false) (engine : Engine) :
    Delimiters.substitution.scan (l.substitute engine) l.text.toList =
      pure ((Delimiters.substitution.pieces l.text.toList).flatMap
        (Delimiters.substitution.fill id)) := by
  unfold Literal.isDynamic Delimiters.hasToken at h
  rw [Bool.not_eq_false'] at h
  exact Delimiters.scan_of_contents _ _ (List.isEmpty_iff.mp h)

theorem Literal.apply_static {l : Literal} (h : l.isDynamic = false) (engine : Engine) (s : Scope) :
    l.apply engine s = .ok true (s.append l.staticText) := by
  unfold Literal.apply
  rw [Literal.scan_static h, pure_bind]
  rfl

namespace Template

mutual

/-- **A static template appends its fragments and does nothing else**, for every engine and in
    every scope. -/
theorem apply_static : ∀ {t : Template}, t.isDynamic = false → ∀ (engine : Engine) (s : Scope),
    t.apply engine s = .ok true (s.appendAll t.staticFragments)
  | .literal _, h, engine, s => Literal.apply_static h engine s
  | .conditional _ _, h, _, _ => nomatch h
  | .loop _ _, h, _, _ => nomatch h
  | .sequence _, h, engine, s => applyAll_static h engine s

theorem applyAll_static : ∀ {ts : List Template}, anyDynamic ts = false →
    ∀ (engine : Engine) (s : Scope),
      applyAll engine ts s = .ok true (s.appendAll (allStaticFragments ts))
  | [], _, _, _ => rfl
  | t :: ts, h, engine, s => by
    obtain ⟨ht, hts⟩ := Bool.or_eq_false_iff.mp h
    rw [applyAll]
    show EStateM.bind (apply engine t) (fun _ => applyAll engine ts) s = _
    unfold EStateM.bind
    rw [apply_static ht engine s]
    show applyAll engine ts (s.appendAll t.staticFragments) = _
    rw [applyAll_static hts engine, ← Scope.appendAll_append]
    rfl

end

/-- The text of a static template, in which bind placeholders still stand. -/
def staticText (t : Template) : String := Text.trimText (Text.joinTexts " " t.staticFragments)

end Template

/-- Rendering a static template is finalizing its text. -/
theorem Backend.render_static (b : Backend) {t : Template} (h : t.isDynamic = false)
    (parameter : Value) (accessor : Option Accessor) :
    b.render t parameter accessor =
      Query.finalize b.settings.markerStyle t.staticText (b.bindingsFor parameter accessor) := by
  unfold Backend.render Backend.renderScope
  rw [Template.apply_static h, Scope.appendAll_eq]
  rfl

/-! ## 2. Prepared forms -/

namespace Statement

/-- Whether every prepared form is what finalizing the text makes for its style, under bindings of
    whatever call it was made in. -/
def Honest (s : Statement) : Prop :=
  ∀ style p, s.prepared style = some p →
    ∃ bindings q, Query.finalize style s.root.staticText bindings = .ok q ∧ p = .ofQuery q

theorem honest_ofTemplate (id : String) (root : Template) : (ofTemplate id root).Honest := by
  intro style p h
  cases h

theorem Honest.keep {s : Statement} (hs : s.Honest) {style : MarkerStyle} {bindings : Bindings}
    {q : Query} (hq : Query.finalize style s.root.staticText bindings = .ok q) :
    (s.keep style (.ofQuery q)).Honest := by
  intro other p hp
  by_cases ho : other = style
  · subst ho
    have he : some (Prepared.ofQuery q) = some p := by
      rw [← hp]
      exact (if_pos rfl).symm
    cases he
    exact ⟨bindings, q, hq, rfl⟩
  · have he : s.prepared other = some p := by
      rw [← hp]
      exact (if_neg ho).symm
    exact hs other p he

/-- What preparing a statement comes to: the form of some render of its text for the style at hand,
    or the failure of one. The statement stays honest. -/
theorem prepare_cases {s : Statement} (hd : s.isDynamic = false) (hs : s.Honest) (b : Backend) :
    ∃ bindings, (s.prepare b).1 =
        (Query.finalize b.settings.markerStyle s.root.staticText bindings).map Prepared.ofQuery ∧
      (s.prepare b).2.Honest ∧ (s.prepare b).2.root = s.root ∧ (s.prepare b).2.id = s.id := by
  cases hp : s.prepared b.settings.markerStyle with
  | some p =>
    obtain ⟨bindings, q, hq, rfl⟩ := hs _ p hp
    have he : s.prepare b = (.ok (.ofQuery q), s) := by simp only [prepare, hp]
    rw [he]
    exact ⟨bindings, by rw [hq]; rfl, hs, rfl, rfl⟩
  | none =>
    have hr := b.render_static hd .null none
    cases hq : Query.finalize b.settings.markerStyle s.root.staticText
        (b.bindingsFor .null none) with
    | error e =>
      have he : s.prepare b = (.error e, s) := by simp only [prepare, hp, hr, hq]
      rw [he]
      exact ⟨_, by rw [hq]; rfl, hs, rfl, rfl⟩
    | ok q =>
      have he : s.prepare b = (.ok (.ofQuery q), s.keep b.settings.markerStyle (.ofQuery q)) := by
        simp only [prepare, hp, hr, hq]
      rw [he]
      exact ⟨_, by rw [hq]; rfl, hs.keep hq, rfl, rfl⟩

/-- One call: a render of the text without the types of its markers, bound to the call's own
    bindings. The statement stays honest. -/
theorem render_cases {s : Statement} (hd : s.isDynamic = false) (hs : s.Honest) (b : Backend)
    (parameter : Value) (accessor : Option Accessor) :
    ∃ bindings, (s.render b parameter accessor).1 =
        ((Query.finalize b.settings.markerStyle s.root.staticText bindings).map fun q =>
          { q with bindings := b.bindingsFor parameter accessor }).mapError (.inStatement s.id) ∧
      (s.render b parameter accessor).2.Honest ∧
      (s.render b parameter accessor).2.root = s.root ∧
      (s.render b parameter accessor).2.id = s.id := by
  obtain ⟨bindings, ho, hh, hr, hi⟩ := prepare_cases hd hs b
  refine ⟨bindings, ?_⟩
  have hb : s.renderBare b parameter accessor =
      ((s.prepare b).1.map fun p => p.bind (b.bindingsFor parameter accessor),
        (s.prepare b).2) := by
    unfold renderBare
    rw [hd]
    cases s.prepare b with
    | mk outcome next => cases outcome with
      | ok p => rfl
      | error e => rfl
  unfold render
  rw [hb]
  refine ⟨?_, hh, hr, hi⟩
  rw [ho]
  cases Query.finalize b.settings.markerStyle s.root.staticText bindings with
  | error e => rfl
  | ok q => rfl

/-! ## 3. Calls -/

/-- One call of a statement. -/
structure Call where
  backend : Backend
  parameter : Value
  accessor : Option Accessor := none

/-- A statement after calls, the first one first. -/
def after (s : Statement) : List Call → Statement
  | [] => s
  | c :: cs => after (s.render c.backend c.parameter c.accessor).2 cs

theorem after_honest {s : Statement} (hd : s.isDynamic = false) (hs : s.Honest)
    (calls : List Call) :
    (s.after calls).Honest ∧ (s.after calls).root = s.root ∧ (s.after calls).id = s.id := by
  induction calls generalizing s with
  | nil => exact ⟨hs, rfl, rfl⟩
  | cons c cs ih =>
    obtain ⟨_, -, hh, hr, hi⟩ := render_cases hd hs c.backend c.parameter c.accessor
    have hd' : (s.render c.backend c.parameter c.accessor).2.isDynamic = false := by
      unfold isDynamic
      rw [hr]
      exact hd
    obtain ⟨hh', hr', hi'⟩ := ih hd' hh
    exact ⟨hh', hr'.trans hr, hi'.trans hi⟩

/-- Whether a call of the statement `id` has the outcome of a full render: the same failure, wrapped
    once, or a query that differs at most in the types of its markers and gives every engine the
    same values. -/
inductive Agrees (id : String) : Except RenderError Query → Except RenderError Query → Prop where
  | failed {e : RenderError} : Agrees id (.error e) (.error (.inStatement id e))
  | rendered {q q' : Query} (hs : q'.sql = q.sql)
      (hm : q'.markers.map Marker.untyped = q.markers.map Marker.untyped)
      (hb : q'.bindings = q.bindings) (hv : ∀ engine, q'.values engine = q.values engine) :
      Agrees id (.ok q) (.ok q')

/-- Finalizing one text under other bindings makes a query that agrees once it is bound anew. -/
theorem agrees_finalize (id : String) (style : MarkerStyle) (text : String) (b b' : Bindings) :
    Agrees id (Query.finalize style text b)
      (((Query.finalize style text b').map fun q => { q with bindings := b }).mapError
        (.inStatement id)) := by
  have hu := ofContents_untyped (Delimiters.bind.contents text.toList) b' b
  rw [Query.finalize_eq, Query.finalize_eq]
  cases hb : ofContents b (Delimiters.bind.contents text.toList) with
  | error e =>
    cases hb' : ofContents b' (Delimiters.bind.contents text.toList) with
    | error e' =>
      rw [hb, hb'] at hu
      cases hu
      exact .failed
    | ok ms' =>
      rw [hb, hb'] at hu
      cases hu
  | ok ms =>
    cases hb' : ofContents b' (Delimiters.bind.contents text.toList) with
    | error e' =>
      rw [hb, hb'] at hu
      cases hu
    | ok ms' =>
      rw [hb, hb'] at hu
      have hm : ms'.map Marker.untyped = ms.map Marker.untyped := Except.ok.inj hu
      refine .rendered rfl hm rfl fun engine => ?_
      show Query.valuesFrom b engine 1 ms' = Query.valuesFrom b engine 1 ms
      rw [← valuesFrom_untyped, hm, valuesFrom_untyped]

/-- **The static fast path agrees with the full render.** Whatever backends, parameters and
    accessors a statement without dynamic parts has been called with, the next call has the outcome
    of rendering its template in full. -/
theorem render_agrees {root : Template} (h : root.isDynamic = false) (id : String)
    (calls : List Call) (c : Call) :
    Agrees id (c.backend.render root c.parameter c.accessor)
      (((ofTemplate id root).after calls).render c.backend c.parameter c.accessor).1 := by
  obtain ⟨hh, hr, hi⟩ := after_honest (s := ofTemplate id root) h (honest_ofTemplate id root) calls
  have hr : ((ofTemplate id root).after calls).root = root := hr
  have hi : ((ofTemplate id root).after calls).id = id := hi
  have hd : ((ofTemplate id root).after calls).isDynamic = false := by
    unfold isDynamic
    rw [hr]
    exact h
  obtain ⟨bindings, ho, -⟩ := render_cases hd hh c.backend c.parameter c.accessor
  rw [ho, hr, hi, c.backend.render_static h]
  exact agrees_finalize id _ _ _ _

/-- A text with a placeholder and an escaped substitution. -/
def escapedTemplate : Template := .ofText "SELECT \\${id} WHERE id = #{id:INTEGER}"

/-- A call with numbered markers and one with question marks and a dialect. -/
def mixedCalls : Call × Call :=
  ({ backend := { engine := { evaluate := fun _ _ => .ok .null }
                  settings := { markerStyle := .dollarNumbered } }
     parameter := .str "a" },
   { backend := { engine := { evaluate := fun _ b => .ok b.parameter }
                  settings := { databaseId := some "pg" } }
     parameter := .int 3 })

/-- The escaped template, called for one style after the other. -/
theorem escapedTemplate_agrees :
    escapedTemplate.isDynamic = false ∧
      Agrees "byId"
        (mixedCalls.2.backend.render escapedTemplate mixedCalls.2.parameter mixedCalls.2.accessor)
        (((ofTemplate "byId" escapedTemplate).after [mixedCalls.1]).render mixedCalls.2.backend
          mixedCalls.2.parameter mixedCalls.2.accessor).1 := by
  have hs : escapedTemplate.isDynamic = false := by decide +kernel
  exact ⟨hs, render_agrees hs "byId" [mixedCalls.1] mixedCalls.2⟩

end Statement

end SqlTemplate
