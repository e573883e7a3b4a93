import SqlTemplate.Proofs.Alignment
import SqlTemplate.Proofs.PlaceholderMarkers
import SqlTemplate.Proofs.Traces

/-!
# Substitutions that leave nothing

A literal is put into a template, somewhere, and all that it has are substitutions without a text.

* `Spot`: a place of a template, with the template around it;
* `Spot.steady`: a literal that leaves nothing does no more at a spot than to leave traces;
* `Backend.render_undisturbed`: the markers of the template and their values are the same, unless
  they lie inside of a scalar parameter.
-/

namespace SqlTemplate

variable {e : Option Value} {engine : Engine}

/-! ## 1. Spots -/

/-- A place of a template, with the template around it. -/
inductive Spot where
  /-- In front of a template. -/
  | before (t : Template)
  /-- Behind a template. -/
  | behind (t : Template)
  /-- Between two templates of a sequence, or at one of its ends. -/
  | between (front back : List Template)
  /-- Inside of the body of a conditional. -/
  | conditional (test : String) (body : Spot)
  /-- Inside of the body of a loop. -/
  | loop (l : Loop) (body : Spot)
  /-- Inside of a template of a sequence. -/
  | child (front : List Template) (inner : Spot) (back : List Template)

namespace Spot

/-- The template around a spot. -/
def plain : Spot → Template
  | .before t => t
  | .behind t => t
  | .between front back => .sequence (front ++ back)
  | .conditional test body => .conditional test body.plain
  | .loop l body => .loop l body.plain
  | .child front inner back => .sequence (front ++ inner.plain :: back)

/-- The template with a literal at the spot. -/
def filled (inserted : Literal) : Spot → Template
  | .before t => .sequence [.literal inserted, t]
  | .behind t => .sequence [t, .literal inserted]
  | .between front back => .sequence (front ++ .literal inserted :: back)
  | .conditional test body => .conditional test (body.filled inserted)
  | .loop l body => .loop l (body.filled inserted)
  | .child front inner back => .sequence (front ++ inner.filled inserted :: back)

/-- Whether `P` holds of every scope in which a render that starts in a scope gets to the spot. -/
def Always (engine : Engine) (P : Scope → Prop) : Spot → Scope → Prop
  | .before _, s => P s
  | .behind t, s => ∀ r m, t.apply engine s = .ok r m → P m
  | .between front _, s => ∀ r m, Template.applyAll engine front s = .ok r m → P m
  | .conditional test body, s => engine.test test s.bindings = .ok true → body.Always engine P s
  | .loop l body, s => ∀ es, engine.elements l.collection s.bindings = .ok es →
    l.Everywhere (body.plain.apply engine) (body.Always engine P) true 0 es
      (Loop.appendText l.opening s)
  | .child front inner _, s => ∀ r m, Template.applyAll engine front s = .ok r m →
    inner.Always engine P m

/-- What holds of all scopes always holds at a spot. -/
theorem always_of_forall {P : Scope → Prop} (hp : ∀ s, P s) : ∀ (spot : Spot) (s : Scope),
    spot.Always engine P s
  | .before _, s => hp s
  | .behind _, _ => fun _ m _ => hp m
  | .between _ _, _ => fun _ m _ => hp m
  | .conditional _ body, s => fun _ => always_of_forall hp body s
  | .loop _ body, _ => fun _ _ => Loop.everywhere_of_forall (always_of_forall hp body) _ _ _ _
  | .child _ inner _, _ => fun _ m _ => always_of_forall hp inner m

end Spot

/-! ## 2. Literals that leave nothing -/

namespace Literal

/-- Whether a literal consists of substitutions alone. -/
def IsTokens (l : Literal) : Prop :=
  ∀ p ∈ Delimiters.substitution.pieces l.text.toList, p = .text [] ∨ ∃ content, p = .token content

/-- Whether a substitution succeeds and leaves no text. -/
structure Vanishes (l : Literal) (engine : Engine) (b : Bindings) (content : List Char) :
    Prop where
  value : ∃ v, engine.evaluate (String.ofList content) (seen b) = .ok v ∧ substituted v = ""
  accepted : checkText l.check "" = .ok ()

/-- Whether all substitutions of a literal succeed and leave no text. -/
def LeavesNothing (l : Literal) (engine : Engine) (s : Scope) : Prop :=
  ∀ content ∈ Delimiters.substitution.contents l.text.toList,
    l.Vanishes engine s.bindings content

variable {s s' : Scope}

/-- A substitution without a text leaves a trace at most. -/
theorem substitute_empty (he : engine.LooksUp) {l : Literal} {content : List Char}
    (h : Near e s s') (hc : l.Vanishes engine s.bindings content) :
    ∃ m, l.substitute engine content s' = .ok (some []) m ∧ Near e s m := by
  obtain ⟨v, hv, hempty⟩ := hc.value
  have hseen : (exposeParameter s').bindings = seen s'.bindings := by
    rw [exposeParameter_bindings]
  have hv' : engine.evaluate (String.ofList content) (exposeParameter s').bindings = .ok v := by
    rw [hseen, he.evaluate _ h.bindings.exposing.get?, hv]
  refine ⟨exposeParameter s', ?_, h.exposing_right⟩
  unfold substitute
  refine RenderM.bind_ok.mpr ⟨(), _, rfl, RenderM.bind_ok.mpr ⟨_, _, rfl, ?_⟩⟩
  refine RenderM.bind_ok.mpr ⟨v, _, RenderM.ofExcept_ok.mpr ⟨hv', rfl⟩, ?_⟩
  rw [hempty]
  exact RenderM.bind_ok.mpr ⟨(), _, RenderM.ofExcept_ok.mpr ⟨hc.accepted, rfl⟩, rfl⟩

theorem renderPieces_empty (he : engine.LooksUp) {l : Literal} {ps : List Piece} (h : Near e s s')
    (ht : ∀ p ∈ ps, p = .text [] ∨ ∃ content, p = .token content)
    (hs : ∀ content, .token content ∈ ps → l.Vanishes engine s.bindings content) :
    ∃ m, Delimiters.substitution.renderPieces (l.substitute engine) ps s' = .ok [] m ∧
      Near e s m := by
  induction ps generalizing s' with
  | nil => exact ⟨s', rfl, h⟩
  | cons p ps ih =>
    obtain ⟨m, hm, hnear⟩ : ∃ m, Delimiters.substitution.renderPiece (l.substitute engine) p s' =
        .ok [] m ∧ Near e s m := by
      rcases ht p List.mem_cons_self with rfl | ⟨content, rfl⟩
      · exact ⟨s', rfl, h⟩
      · obtain ⟨m, hm, hnear⟩ := substitute_empty he h (hs content List.mem_cons_self)
        exact ⟨m, RenderM.bind_ok.mpr ⟨_, m, hm, rfl⟩, hnear⟩
    obtain ⟨n, hn, hfar⟩ := ih hnear (fun q hq => ht q (List.mem_cons_of_mem p hq))
      fun content hc => hs content (List.mem_cons_of_mem p hc)
    exact ⟨n, RenderM.bind_ok.mpr ⟨_, m, hm, RenderM.bind_ok.mpr ⟨_, n, hn, rfl⟩⟩, hfar⟩

/-- **A literal that leaves nothing** is rendered, and leaves traces at most. -/
theorem apply_empty (he : engine.LooksUp) {l : Literal} (ht : l.IsTokens) (h : Near e s s')
    (hs : l.LeavesNothing engine s) : ∃ m, l.apply engine s' = .ok true m ∧ Near e s m := by
  have found {content : List Char}
      (hc : .token content ∈ Delimiters.substitution.pieces l.text.toList) :
      content ∈ Delimiters.substitution.contents l.text.toList :=
    List.mem_filterMap.mpr ⟨_, hc, rfl⟩
  obtain ⟨m, hm, hnear⟩ := renderPieces_empty he h ht fun content hc => hs content (found hc)
  exact ⟨m.append "", RenderM.bind_ok.mpr ⟨[], m, hm, rfl⟩, hnear.append_empty⟩

end Literal

/-! ## 3. Insertion -/

theorem Template.allLoops_append (front back : List Template) :
    allLoops (front ++ back) = allLoops front ++ allLoops back := by
  induction front with
  | nil => rfl
  | cons child front ih => rw [List.cons_append, allLoops, allLoops, ih, List.append_assoc]

namespace Spot

open Template (allLoops allLoops_append applyAll_append)

/-- The loops around a spot in a sequence. -/
theorem isFree_append {front back : List Template} (hl : ∀ l ∈ allLoops (front ++ back), l.IsFree e) :
    (∀ l ∈ allLoops front, l.IsFree e) ∧ ∀ l ∈ allLoops back, l.IsFree e := by
  rw [allLoops_append] at hl
  exact List.forall_mem_append.mp hl

theorem child_steady (he : engine.LooksUp) {front back : List Template} {child child' : Template}
    {P : Scope → Prop}
    (hc : Steady e P (child.apply engine) (child'.apply engine))
    (hl : ∀ l ∈ allLoops front, l.IsFree e) (hb : ∀ l ∈ allLoops back, l.IsFree e) :
    Steady e (fun s => ∀ r m, Template.applyAll engine front s = .ok r m → P m)
      (Template.applyAll engine (front ++ child :: back))
      (Template.applyAll engine (front ++ child' :: back)) := by
  intro s s' h hp
  rw [applyAll_append, applyAll_append]
  refine .bind (Template.applyAll_steady he front hl h True.intro) fun r _ m m' hr _ hm => ?_
  refine .bind (hc hm (hp r m hr)) fun _ _ _ _ _ _ hn => ?_
  exact Template.applyAll_steady he back hb hn True.intro

section Places

variable {inserted : Literal} (he : engine.LooksUp) (ht : inserted.IsTokens)
include he ht

theorem before_steady {t : Template} (hl : ∀ l ∈ t.loops, l.IsFree e) :
    Steady e (inserted.LeavesNothing engine) (t.apply engine)
      ((Spot.before t |>.filled inserted).apply engine) := by
  intro s s' h hp
  obtain ⟨m, hm, hnear⟩ := inserted.apply_empty he ht h hp
  show Alike _ e (t.apply engine s) ((inserted.apply engine >>= fun _ =>
    t.apply engine >>= fun _ => pure true) s')
  rw [RenderM.bind_of_ok hm]
  exact .followed (t.apply_steady he hl hnear True.intro) fun _ _ m' _ hm => ⟨true, m', rfl, hm⟩

theorem behind_steady {t : Template} (hl : ∀ l ∈ t.loops, l.IsFree e) :
    Steady e ((Spot.behind t).Always engine (inserted.LeavesNothing engine)) (t.apply engine)
      ((Spot.behind t |>.filled inserted).apply engine) := by
  intro s s' h hp
  show Alike _ e (t.apply engine s) ((t.apply engine >>= fun _ =>
    inserted.apply engine >>= fun _ => pure true) s')
  refine .followed (t.apply_steady he hl h True.intro) fun r m m' hr hm => ?_
  obtain ⟨n, hn, hnear⟩ := inserted.apply_empty he ht hm (hp r m hr)
  exact ⟨true, n, RenderM.bind_of_ok hn _, hnear⟩

theorem between_steady {front back : List Template}
    (hl : ∀ l ∈ allLoops (front ++ back), l.IsFree e) :
    Steady e ((Spot.between front back).Always engine (inserted.LeavesNothing engine))
      (Template.applyAll engine (front ++ back))
      (Template.applyAll engine (front ++ .literal inserted :: back)) := by
  intro s s' h hp
  obtain ⟨hfront, hback⟩ := isFree_append hl
  rw [applyAll_append, applyAll_append]
  refine .bind (Template.applyAll_steady he front hfront h True.intro) fun r _ m m' hr _ hm => ?_
  obtain ⟨n, hn, hnear⟩ := inserted.apply_empty he ht hm (hp r m hr)
  show Alike _ e (Template.applyAll engine back m)
    ((inserted.apply engine >>= fun _ => Template.applyAll engine back) m')
  rw [RenderM.bind_of_ok hn]
  exact Template.applyAll_steady he back hback hnear True.intro

/-- **A literal that leaves nothing does no more at a spot than to leave traces.** -/
theorem steady : ∀ spot : Spot, (∀ l ∈ spot.plain.loops, l.IsFree e) →
    Steady e (spot.Always engine (inserted.LeavesNothing engine)) (spot.plain.apply engine)
      ((spot.filled inserted).apply engine)
  | .before _, hl => before_steady he ht hl
  | .behind _, hl => behind_steady he ht hl
  | .between _ _, hl => between_steady he ht hl
  | .conditional _ body, hl => Template.applyConditional_steady he (steady body hl)
  | .loop l body, hl =>
    l.apply_steady he (steady body fun l hmem => hl l (List.mem_cons_of_mem _ hmem))
      (hl l List.mem_cons_self)
  | .child _ inner _, hl =>
    have ⟨hfront, hrest⟩ := isFree_append hl
    have ⟨hinner, hback⟩ := List.forall_mem_append.mp hrest
    child_steady he (steady inner hinner) hfront hback

end Places

end Spot

/-! ## 4. Queries -/

theorem flatMap_shown (fragments : List String) :
    (fragments.filter isShown).flatMap fragmentContents = fragments.flatMap fragmentContents := by
  induction fragments with
  | nil => rfl
  | cons fragment rest ih =>
    cases hf : isShown fragment with
    | true =>
      rw [List.filter_cons_of_pos hf, List.flatMap_cons, List.flatMap_cons, ih]
    | false =>
      have hempty : fragment = "" := String.isEmpty_iff.mp (by simpa [isShown] using hf)
      have hnone : fragmentContents fragment = [] := by
        rw [hempty]
        exact contentsFrom_nil
      rw [List.filter_cons_of_neg (ne_true_of_eq_false hf), List.flatMap_cons, hnone, ih]
      rfl

/-- Scopes that are near have the same placeholders. -/
theorem Near.contents {s s' : Scope} (h : Near e s s') (hc : ∀ f ∈ s.fragments, IsClosed f.toList) :
    Delimiters.bind.contents s'.text.toList = Delimiters.bind.contents s.text.toList := by
  have hc' : ∀ f ∈ s'.fragments, IsClosed f.toList := by
    intro f hf
    cases hs : isShown f with
    | true =>
      have hmem : f ∈ s'.fragments.filter isShown := List.mem_filter.mpr ⟨hf, hs⟩
      rw [h.fragments] at hmem
      exact hc f (List.mem_filter.mp hmem).1
    | false =>
      have hempty : f = "" := String.isEmpty_iff.mp (by simpa [isShown] using hs)
      rw [hempty]
      exact isClosed_of_not_occursIn rfl
  rw [contents_text hc, contents_text hc', ← flatMap_shown, h.fragments, flatMap_shown]

/-- Values that do not lie inside of a scalar parameter are the same with the alias. -/
theorem Bindings.Aliased.resolve (he : engine.LooksUp) {b b' : Bindings} (h : Aliased e b b')
    {m : Marker} (hp : ¬b.Enters m.property) : m.resolve b' engine = m.resolve b engine := by
  cases hm : m.expression with
  | some expression =>
    unfold Marker.resolve
    rw [hm]
    exact he.evaluate expression h.get?
  | none =>
    rw [Marker.resolve_property hm, Marker.resolve_property hm]
    exact congrArg Except.ok (h.readNow hp)

/-- Values are the same where all markers resolve to the same. -/
theorem valuesFrom_congr {b b' : Bindings} {ms : List Marker}
    (h : ∀ m ∈ ms, m.resolve b' engine = m.resolve b engine) (position : Nat) :
    Query.valuesFrom b' engine position ms = Query.valuesFrom b engine position ms := by
  induction ms generalizing position with
  | nil => rfl
  | cons m ms ih =>
    rw [List.forall_mem_cons] at h
    rw [Query.valuesFrom, Query.valuesFrom, h.1, ih h.2]

/-- Whether an outcome is another one but for traces of substitutions: the same failure, or a query
    with the same markers and the same values, unless they lie inside of a scalar parameter. -/
inductive Undisturbed (engine : Engine) :
    Except RenderError Query → Except RenderError Query → Prop where
  | failed (failure : RenderError) : Undisturbed engine (.error failure) (.error failure)
  | rendered {q q' : Query}
      (markers : List.Forall₂ (Marker.SameUnless fun m => q.bindings.Enters m.property)
        q.markers q'.markers)
      (resolved : ∀ m : Marker, ¬q.bindings.Enters m.property →
        m.resolve q'.bindings engine = m.resolve q.bindings engine) :
      Undisturbed engine (.ok q) (.ok q')

/-- Scopes that are near make such queries. -/
theorem Near.undisturbed (he : engine.LooksUp) {s s' : Scope} (h : Near e s s')
    (hc : ∀ f ∈ s.fragments, IsClosed f.toList) (style : MarkerStyle) :
    Undisturbed engine (Query.finalize style s.text s.bindings)
      (Query.finalize style s'.text s'.bindings) := by
  rw [Query.finalize_eq, Query.finalize_eq, h.contents hc]
  cases ho : ofContents s.bindings (Delimiters.bind.contents s.text.toList) with
  | error failure =>
    rw [ofContents_refused ho]
    exact .failed failure
  | ok ms =>
    have htypes (m : Marker) (hm : ¬s.bindings.Enters m.property) :
        m.inferredType s'.bindings = m.inferredType s.bindings := h.bindings.inferredType hm
    obtain ⟨ms', ho', hall⟩ := ofContents_sameUnless htypes ho
    rw [ho']
    exact .rendered hall fun m hm => h.bindings.resolve he hm

/-- Where no marker leads into a scalar parameter, all markers and all values are the same. -/
theorem Undisturbed.values {q : Query} {outcome : Except RenderError Query}
    (h : Undisturbed engine (.ok q) outcome)
    (hm : ∀ m ∈ q.markers, ¬q.bindings.Enters m.property) :
    ∃ q', outcome = .ok q' ∧ q'.markers = q.markers ∧ q'.values engine = q.values engine := by
  cases h with
  | @rendered _ q' hmarkers hresolved =>
    have hsame : q'.markers = q.markers := eq_of_sameUnless hmarkers hm
    refine ⟨q', rfl, hsame, ?_⟩
    unfold Query.values
    rw [hsame]
    exact valuesFrom_congr (fun m hmem => hresolved m (hm m hmem)) 1

/-- Whether a literal can be inserted at a spot for a render. -/
structure Spot.Takes (spot : Spot) (inserted : Literal) (b : Backend) (parameter : Value)
    (accessor : Option Accessor) : Prop where
  /-- The engine asks bindings for the values of names. -/
  looksUp : b.engine.LooksUp
  /-- The literal has nothing but substitutions. -/
  tokens : inserted.IsTokens
  /-- They leave nothing whenever the render gets to the spot. -/
  silent : spot.Always b.engine (inserted.LeavesNothing b.engine)
    (.ofBindings (b.bindingsFor parameter accessor))
  /-- No loop binds what substitutions write. -/
  loops : ∀ l ∈ spot.plain.loops, l.IsFree (b.bindingsFor parameter accessor).exposed?
  /-- No placeholder is torn apart at the spot. -/
  closed : ∀ s, b.renderScope spot.plain parameter accessor = .ok s →
    ∀ f ∈ s.fragments, IsClosed f.toList

/-- **What substitutions that leave nothing change**: a path has the same value when the parameter
    has been exposed, and so have all markers of a template with such a literal anywhere in it. The
    exception are paths that lead from the alias into a scalar parameter, which stand for the
    parameter itself before and for a part of it behind a substitution. -/
theorem Backend.render_undisturbed (b : Backend) (parameter : Value)
    (accessor : Option Accessor) :
    (∀ m : Marker, m.expression = none →
      let start := b.bindingsFor parameter accessor
      (¬start.Enters m.property →
        m.resolve (Literal.seen start) b.engine = m.resolve start b.engine) ∧
      ∀ step rest, start.shape = .scalar →
        Path.parse m.property = .name Literal.valueName :: step :: rest →
        m.resolve start b.engine = .ok start.parameter ∧
          m.resolve (Literal.seen start) b.engine =
            .ok ((Path.read? start.parameter (step :: rest)).getD .null)) ∧
    ∀ (spot : Spot) (inserted : Literal), spot.Takes inserted b parameter accessor →
      Undisturbed b.engine (b.render spot.plain parameter accessor)
          (b.render (spot.filled inserted) parameter accessor) ∧
        ∀ q, b.render spot.plain parameter accessor = .ok q →
          (∀ m ∈ q.markers, ¬q.bindings.Enters m.property) →
          ∃ q', b.render (spot.filled inserted) parameter accessor = .ok q' ∧
            q'.markers = q.markers ∧ q'.values b.engine = q.values b.engine := by
  refine ⟨fun m hm => Bindings.resolve_exposing parameter accessor _ hm b.engine,
    fun spot inserted h => ?_⟩
  have halias := Bindings.aliased_forParameter parameter accessor b.settings.databaseId
  have hstart : Near (b.bindingsFor parameter accessor).exposed?
      (.ofBindings (b.bindingsFor parameter accessor))
      (.ofBindings (b.bindingsFor parameter accessor)) := ⟨halias, rfl, rfl, rfl⟩
  have hclosed := h.closed
  have hall : Undisturbed b.engine (b.render spot.plain parameter accessor)
      (b.render (spot.filled inserted) parameter accessor) := by
    have hrun := spot.steady h.looksUp h.tokens h.loops hstart h.silent
    unfold render renderScope at *
    generalize spot.plain.apply b.engine _ = x at hrun hclosed ⊢
    generalize (spot.filled inserted).apply b.engine _ = x' at hrun ⊢
    cases hrun with
    | ok _ hs => exact hs.undisturbed h.looksUp (hclosed _ rfl) b.settings.markerStyle
    | error failure s s' => exact .failed failure
  refine ⟨hall, fun q hq hm => ?_⟩
  rw [hq] at hall
  exact hall.values hm

/-- A substitution of an empty text. -/
def blank : Literal := { text := "$\x7b''\x7d" }

theorem blank_pieces : Delimiters.substitution.pieces blank.text.toList =
    [.text [], .token "''".toList, .text []] := by decide +kernel

theorem blank_tokens : blank.IsTokens := by
  intro p hp
  rw [blank_pieces] at hp
  rcases List.mem_cons.mp hp with rfl | hp
  · exact .inl rfl
  rcases List.mem_cons.mp hp with rfl | hp
  · exact .inr ⟨_, rfl⟩
  · exact .inl (List.mem_singleton.mp hp)

theorem blank_leavesNothing (s : Scope) : blank.LeavesNothing .standard s := by
  have hcontents : Delimiters.substitution.contents blank.text.toList = ["''".toList] := by
    decide +kernel
  intro content hc
  rw [hcontents] at hc
  rw [List.mem_singleton.mp hc]
  exact ⟨⟨.str "", by with_unfolding_all rfl, rfl⟩, rfl⟩

/-- In front of each element of a loop, with the alias behind the loop. -/
def elementSpot : Spot :=
  .child [] (.loop { collection := "[1, 2]", item := some "x" } (.before (.ofText "#{x}")))
    [.ofText "#{value}"]

theorem elementSpot_takes : elementSpot.Takes blank { engine := .standard } (.int 42) none := by
  refine ⟨Expression.Globals.standard.engine_looksUp, blank_tokens,
    elementSpot.always_of_forall blank_leavesNothing _, fun l hl n hn => ?_, fun s hs f hf => ?_⟩
  · obtain rfl := List.mem_singleton.mp hl
    obtain rfl := List.mem_singleton.mp hn
    exact ⟨by decide, .inl (by decide)⟩
  · have hfragments : (Backend.renderScope { engine := .standard } elementSpot.plain (.int 42)
        none).map Scope.fragments = .ok ["#{__frch_x_0}", "#{__frch_x_1}", "#{value}"] := by
      decide +kernel
    rw [hs] at hfragments
    rw [Except.ok.inj hfragments] at hf
    rcases List.mem_cons.mp hf with rfl | hf
    · exact isClosed_of_token "__frch_x_0".toList (by decide +kernel)
    rcases List.mem_cons.mp hf with rfl | hf
    · exact isClosed_of_token "__frch_x_1".toList (by decide +kernel)
    rw [List.mem_singleton.mp hf]
    exact isClosed_of_token "value".toList (by decide +kernel)

/-- The elements and the alias are bound to the same values with the substitution. -/
theorem elementSpot_undisturbed :
    ∃ q q', Backend.render { engine := .standard } elementSpot.plain (.int 42) none = .ok q ∧
      Backend.render { engine := .standard } (elementSpot.filled blank) (.int 42) none = .ok q' ∧
      q'.values .standard = q.values .standard := by
  have hlengths : (Backend.render { engine := .standard } elementSpot.plain (.int 42) none).map
      (fun q => q.markers.map fun m => (Path.parse m.property).length) = .ok [1, 1, 1] := by
    decide +kernel
  cases hq : Backend.render { engine := .standard } elementSpot.plain (.int 42) none with
  | error failure =>
    rw [hq] at hlengths
    cases hlengths
  | ok q =>
    rw [hq] at hlengths
    have hpaths : ∀ m ∈ q.markers, ¬q.bindings.Enters m.property := by
      rintro m hm ⟨-, step, rest, hparse⟩
      have hlength : (Path.parse m.property).length ∈ [1, 1, 1] := by
        rw [← Except.ok.inj hlengths]
        exact List.mem_map_of_mem hm
      rw [hparse] at hlength
      simp at hlength
    obtain ⟨q', hq', -, hvalues⟩ := ((Backend.render_undisturbed { engine := .standard } (.int 42)
      none).2 elementSpot blank elementSpot_takes).2 q hq hpaths
    exact ⟨q, q', rfl, hq', hvalues⟩

/-- In front of a placeholder that leads from the alias into the parameter. -/
def insideSpot : Spot := .between [] [.ofText "#{value.x}"]

theorem insideSpot_takes : insideSpot.Takes blank { engine := .standard } (.int 42) none := by
  refine ⟨Expression.Globals.standard.engine_looksUp, blank_tokens,
    insideSpot.always_of_forall blank_leavesNothing _, fun l hl => absurd hl List.not_mem_nil,
    fun s hs f hf => ?_⟩
  have hfragments : (Backend.renderScope { engine := .standard } insideSpot.plain (.int 42)
      none).map Scope.fragments = .ok ["#{value.x}"] := by decide +kernel
  rw [hs] at hfragments
  rw [Except.ok.inj hfragments] at hf
  rw [List.mem_singleton.mp hf]
  exact isClosed_of_token "value.x".toList (by decide +kernel)

/-- **A substitution that leaves nothing changes what is bound**: a path from the alias into a scalar
    parameter is bound to the parameter without it, and to nothing with it. -/
theorem insideSpot_disturbed :
    insideSpot.Takes blank { engine := .standard } (.int 42) none ∧
      ((Backend.render { engine := .standard } insideSpot.plain (.int 42) none).bind
        fun q => q.values .standard).map (List.map fun v => (v.position, v.value.display)) =
          .ok [(1, "42")] ∧
      ((Backend.render { engine := .standard } (insideSpot.filled blank) (.int 42) none).bind
        fun q => q.values .standard).map (List.map fun v => (v.position, v.value.isAbsent)) =
          .ok [(1, true)] :=
  ⟨insideSpot_takes, by decide +kernel, by decide +kernel⟩

end SqlTemplate
