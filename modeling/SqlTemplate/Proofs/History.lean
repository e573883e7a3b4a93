import SqlTemplate.Proofs.Alignment
import SqlTemplate.Proofs.PlaceholderMarkers
import SqlTemplate.Proofs.Static

/-!
# Calls after other calls

A call of a statement is compared with the same call made first on a new statement. The text of a
statement without dynamic parts is finalized by the first call of each style, and what that call
knew is still there in every later one.

* `Statement.maker`: the call that has finalized the text a call gets;
* `Statement.render_hit`, `Statement.render_miss`: one call, with and without a prepared form;
* `Statement.render_after`: what a call gets is what its maker has made, bound to its own bindings;
* `Statement.late_fresh`: the history shows in nothing but the types of markers for the dialect, and
  in these only when the maker has another dialect;
* `Statement.dialect_remembered`: there it does show.
-/

namespace SqlTemplate

/-! ## 1. Markers without a parameter -/

section Absent

variable {database database' : Option String}

/-- Without a parameter, paths lead to the same place in every dialect unless they start at the
    dialect. -/
theorem readOwn?_absent {path : String}
    (h : Bindings.rootName? path ≠ some Bindings.databaseName) :
    (Bindings.forParameter .null none database).readOwn? path =
      (Bindings.forParameter .null none database').readOwn? path := by
  cases hroot : Bindings.rootName? path with
  | none => rw [Bindings.readOwn?_unnamed hroot, Bindings.readOwn?_unnamed hroot]
  | some root =>
    have hother : Bindings.databaseName ≠ root := fun e => h (by rw [hroot, e])
    have hget (d : Option String) : (Bindings.forParameter .null none d).entries.get? root =
        if Bindings.parameterName = root then some .null else none := by
      show (if _ then _ else if _ then _ else _) = _
      rw [if_neg hother]
      rfl
    obtain ⟨rest, hparse⟩ := Bindings.parse_of_rootName? hroot
    rw [Bindings.readOwn?_name hparse, Bindings.readOwn?_name hparse, hget, hget]

/-- Whether a marker reads the dialect. -/
def Marker.ReadsDialect (m : Marker) : Prop :=
  Bindings.rootName? m.property = some Bindings.databaseName

/-- Without a parameter, every dialect tells the same types of markers that do not read it. -/
theorem inferredType_absent {m : Marker} (h : ¬m.ReadsDialect) :
    m.inferredType (.forParameter .null none database') =
      m.inferredType (.forParameter .null none database) := by
  have hown : Bindings.readOwn? (.forParameter .null none database') m.property =
      Bindings.readOwn? (.forParameter .null none database) m.property := readOwn?_absent h
  unfold Marker.inferredType
  rw [hown]
  rfl

end Absent

/-! ## 2. One call -/

namespace Statement

/-- The style of the markers that a call asks for. -/
def Call.style (c : Call) : MarkerStyle := c.backend.settings.markerStyle

/-- The bindings of a call. -/
def Call.bindings (c : Call) : Bindings := c.backend.bindingsFor c.parameter c.accessor

variable {s : Statement} {c : Call}

/-- Whether a statement has dynamic parts is a matter of its template. -/
theorem isDynamic_congr {s' : Statement} (h : s'.root = s.root) : s'.isDynamic = s.isDynamic :=
  congrArg Template.isDynamic h

/-- A prepared form is bound to the call, and nothing else happens. -/
theorem render_hit (hd : s.isDynamic = false) {p : Prepared} (hp : s.prepared c.style = some p) :
    s.render c.backend c.parameter c.accessor = (.ok (p.bind c.bindings), s) := by
  have hprep : s.prepare c.backend = (.ok p, s) := by
    unfold prepare
    simp only [show s.prepared c.backend.settings.markerStyle = some p from hp]
  unfold render renderBare
  rw [hd, hprep]
  rfl

/-- Without a prepared form the template is rendered for no parameter, and the outcome is kept
    unless it is a failure. -/
theorem render_miss (hd : s.isDynamic = false) (hp : s.prepared c.style = none) :
    s.render c.backend c.parameter c.accessor =
      match c.backend.render s.root .null none with
      | .ok q => (.ok ((Prepared.ofQuery q).bind c.bindings), s.keep c.style (.ofQuery q))
      | .error e => (.error (.inStatement s.id e), s) := by
  have hprep : s.prepare c.backend = match c.backend.render s.root .null none with
      | .ok q => (.ok (.ofQuery q), s.keep c.style (.ofQuery q))
      | .error e => (.error e, s) := by
    unfold prepare
    simp only [show s.prepared c.backend.settings.markerStyle = none from hp]
    rfl
  unfold render renderBare
  rw [hd, hprep]
  cases c.backend.render s.root .null none with
  | ok q => rfl
  | error e => rfl

/-- One call leaves the id, the template and the prepared forms of all other styles as they are, and
    its own prepared form, if there is one. -/
theorem render_keeps (hd : s.isDynamic = false) (c : Call) :
    let s' := (s.render c.backend c.parameter c.accessor).2
    s'.id = s.id ∧ s'.root = s.root ∧
      ∀ style, style ≠ c.style ∨ (s.prepared style).isSome →
        s'.prepared style = s.prepared style := by
  cases hp : s.prepared c.style with
  | some p =>
    rw [render_hit hd hp]
    exact ⟨rfl, rfl, fun _ _ => rfl⟩
  | none =>
    rw [render_miss hd hp]
    cases c.backend.render s.root .null none with
    | error e => exact ⟨rfl, rfl, fun _ _ => rfl⟩
    | ok q =>
      refine ⟨rfl, rfl, fun style hs => if_neg ?_⟩
      rintro rfl
      rcases hs with hs | hs
      · exact hs rfl
      · rw [hp] at hs
        cases hs

/-! ## 3. Calls after calls -/

/-- A prepared form stays. -/
theorem after_keeps (hd : s.isDynamic = false) {style : MarkerStyle} {p : Prepared}
    (hp : s.prepared style = some p) (calls : List Call) :
    (s.after calls).root = s.root ∧ (s.after calls).prepared style = some p := by
  induction calls generalizing s with
  | nil => exact ⟨rfl, hp⟩
  | cons c calls ih =>
    obtain ⟨-, hroot, hkeep⟩ := render_keeps hd c
    have hd' : (s.render c.backend c.parameter c.accessor).2.isDynamic = false :=
      (isDynamic_congr hroot).trans hd
    have hp' : (s.render c.backend c.parameter c.accessor).2.prepared style = some p := by
      rw [hkeep style (.inr (by rw [hp]; rfl)), hp]
    obtain ⟨hr, hq⟩ := ih hd' hp'
    exact ⟨hr.trans hroot, hq⟩

/-- Whether another call asks for the style of a call. -/
def Call.sharesStyle (c k : Call) : Bool := k.style = c.style

/-- The call whose text a call gets after other calls: the first one with the same style, or the
    call itself. -/
def maker (calls : List Call) (c : Call) : Call := (calls.find? c.sharesStyle).getD c

theorem style_maker (calls : List Call) (c : Call) : (maker calls c).style = c.style := by
  unfold maker
  cases hf : calls.find? c.sharesStyle with
  | none => rfl
  | some k =>
    have hk : c.sharesStyle k = true := List.find?_some hf
    exact of_decide_eq_true hk

theorem maker_cons_same {k c : Call} (h : k.style = c.style) (calls : List Call) :
    maker (k :: calls) c = k := by
  have hk : c.sharesStyle k = true := decide_eq_true h
  unfold maker
  rw [List.find?_cons_of_pos hk]
  rfl

theorem maker_cons_other {k c : Call} (h : k.style ≠ c.style) (calls : List Call) :
    maker (k :: calls) c = maker calls c := by
  have hk : ¬c.sharesStyle k = true := fun hs => h (of_decide_eq_true hs)
  unfold maker
  rw [List.find?_cons_of_neg hk]

/-- What one call makes of a template without its parameter, bound to another call. -/
def reused (id : String) (root : Template) (k c : Call) : Except RenderError Query :=
  ((k.backend.render root .null none).map fun q => { q with bindings := c.bindings }).mapError
    (.inStatement id)

/-- A template without dynamic parts that cannot be rendered for one call cannot be rendered for any
    other. -/
theorem render_refused {root : Template} (hd : root.isDynamic = false) {k : Call} {e : RenderError}
    (h : k.backend.render root .null none = .error e) (k' : Call) :
    k'.backend.render root .null none = .error e := by
  rw [Backend.render_static _ hd, Query.finalize_eq] at h ⊢
  cases ho : ofContents (k.backend.bindingsFor .null none)
      (Delimiters.bind.contents root.staticText.toList) with
  | ok ms =>
    rw [ho] at h
    cases h
  | error e' =>
    rw [ho] at h
    cases h
    rw [ofContents_refused ho]
    rfl

/-- **A call gets what its maker has made**, whatever calls came before. -/
theorem render_after (hd : s.isDynamic = false) {c : Call} (hp : s.prepared c.style = none)
    (calls : List Call) :
    ((s.after calls).render c.backend c.parameter c.accessor).1 =
      reused s.id s.root (maker calls c) c := by
  induction calls generalizing s with
  | nil =>
    show (s.render c.backend c.parameter c.accessor).1 = reused s.id s.root c c
    rw [render_miss hd hp]
    unfold reused
    cases c.backend.render s.root .null none with
    | ok q => rfl
    | error e => rfl
  | cons k calls ih =>
    obtain ⟨hid, hroot, hkeep⟩ := render_keeps hd k
    have hd' : (s.render k.backend k.parameter k.accessor).2.isDynamic = false :=
      (isDynamic_congr hroot).trans hd
    show (((s.render k.backend k.parameter k.accessor).2.after calls).render c.backend c.parameter
      c.accessor).1 = _
    by_cases hk : k.style = c.style
    · have hpk : s.prepared k.style = none := hk ▸ hp
      rw [maker_cons_same hk]
      cases hr : k.backend.render s.root .null none with
      | error e =>
        have hs : (s.render k.backend k.parameter k.accessor).2 = s := by rw [render_miss hd hpk, hr]
        have he := render_refused hd hr (maker calls c)
        rw [hs, ih hd hp]
        unfold reused
        rw [hr, he]
      | ok q =>
        have hs : (s.render k.backend k.parameter k.accessor).2 = s.keep k.style (.ofQuery q) := by
          rw [render_miss hd hpk, hr]
        have hprepared : (s.keep k.style (.ofQuery q)).prepared c.style = some (.ofQuery q) :=
          if_pos hk.symm
        obtain ⟨hroot', hlast⟩ :=
          after_keeps (s := s.keep k.style (.ofQuery q)) hd hprepared calls
        have hd'' : ((s.keep k.style (.ofQuery q)).after calls).isDynamic = false :=
          (isDynamic_congr hroot').trans hd
        rw [hs, render_hit hd'' hlast]
        unfold reused
        rw [hr]
        rfl
    · have hp' : (s.render k.backend k.parameter k.accessor).2.prepared c.style = none := by
        rw [hkeep c.style (.inl (Ne.symm hk)), hp]
      rw [ih hd' hp', hid, hroot, maker_cons_other hk]

/-! ## 4. What a history shows -/

/-- The outcome of a call after other calls of a new statement. -/
def late (id : String) (root : Template) (calls : List Call) (c : Call) : Except RenderError Query :=
  (((ofTemplate id root).after calls).render c.backend c.parameter c.accessor).1

/-- The outcome of a call that is made first. -/
def fresh (id : String) (root : Template) (c : Call) : Except RenderError Query :=
  late id root [] c

/-- Whether a call that comes late has the outcome of one that comes first, but for the types of the
    markers that read the dialect. -/
inductive Recalls : Except RenderError Query → Except RenderError Query → Prop where
  | failed {e : RenderError} : Recalls (.error e) (.error e)
  | rendered {q q' : Query} (sql : q'.sql = q.sql) (bindings : q'.bindings = q.bindings)
      (markers : List.Forall₂ (Marker.SameUnless Marker.ReadsDialect) q.markers q'.markers)
      (values : ∀ engine, q'.values engine = q.values engine) : Recalls (.ok q) (.ok q')

theorem Recalls.refl (outcome : Except RenderError Query) : Recalls outcome outcome := by
  cases outcome with
  | error e => exact .failed
  | ok q => exact .rendered rfl rfl (List.forall₂_same.mpr fun m _ => .refl m) fun _ => rfl

/-- Markers that differ at most in their types are bound to the same values. -/
theorem values_of_untyped {q q' : Query} (hb : q'.bindings = q.bindings)
    (hm : q'.markers.map Marker.untyped = q.markers.map Marker.untyped) (engine : Engine) :
    q'.values engine = q.values engine := by
  unfold Query.values
  rw [← valuesFrom_untyped, hm, valuesFrom_untyped, hb]

/-- What two calls with one style make of a template differs at most in the types of the markers
    that read the dialect. -/
theorem reused_recalls (id : String) {root : Template} (hd : root.isDynamic = false) {k k' : Call}
    (hs : k'.style = k.style) (c : Call) : Recalls (reused id root k c) (reused id root k' c) := by
  cases hr : k.backend.render root .null none with
  | error e =>
    unfold reused
    rw [hr, render_refused hd hr k']
    exact .failed
  | ok q =>
    have hq := hr
    rw [Backend.render_static _ hd, Query.finalize_eq] at hq
    cases ho : ofContents (k.backend.bindingsFor .null none)
        (Delimiters.bind.contents root.staticText.toList) with
    | error e =>
      rw [ho] at hq
      cases hq
    | ok ms =>
      have htypes : ∀ m : Marker, ¬m.ReadsDialect →
          m.inferredType (k'.backend.bindingsFor .null none) =
            m.inferredType (k.backend.bindingsFor .null none) := fun _ => inferredType_absent
      obtain ⟨ms', ho', hall⟩ := ofContents_sameUnless htypes ho
      have hr' : k'.backend.render root .null none = .ok
          { sql := markedText k'.style root.staticText, markers := ms',
            bindings := k'.backend.bindingsFor .null none } := by
        rw [Backend.render_static _ hd, Query.finalize_eq, ho']
        rfl
      rw [ho] at hq
      cases hq
      unfold reused
      rw [hr, hr', hs]
      exact .rendered rfl rfl hall (values_of_untyped rfl (untyped_of_sameUnless hall))

/-- Calls for one style and one dialect make the same of a template. -/
theorem reused_congr (id : String) {root : Template} (hd : root.isDynamic = false) {k k' : Call}
    (hs : k'.style = k.style)
    (hdb : k'.backend.settings.databaseId = k.backend.settings.databaseId) (c : Call) :
    reused id root k' c = reused id root k c := by
  have hs : k'.backend.settings.markerStyle = k.backend.settings.markerStyle := hs
  unfold reused
  rw [Backend.render_static _ hd, Backend.render_static _ hd, hs, Backend.bindingsFor,
    Backend.bindingsFor, hdb]

/-- A call of a statement with dynamic parts leaves no trace. -/
theorem after_dynamic (hd : s.isDynamic = true) (calls : List Call) : s.after calls = s := by
  induction calls with
  | nil => rfl
  | cons c calls ih =>
    have hs : (s.render c.backend c.parameter c.accessor).2 = s := by
      unfold render renderBare
      rw [hd]
      rfl
    show (s.render c.backend c.parameter c.accessor).2.after calls = s
    rw [hs, ih]

/-- Where no marker reads the dialect, an outcome that is recalled is the outcome. -/
theorem Recalls.eq {q : Query} {outcome : Except RenderError Query} (h : Recalls (.ok q) outcome)
    (hm : ∀ m ∈ q.markers, ¬m.ReadsDialect) :
    outcome = .ok q := by
  cases h with
  | @rendered _ q' hsql hb hall _ =>
    obtain ⟨sql, ms, b⟩ := q
    obtain ⟨sql', ms', b'⟩ := q'
    cases hsql
    cases hb
    have heq : ms' = ms := eq_of_sameUnless hall hm
    rw [heq]

/-- **Calls do not depend on the calls before them, but for the dialect.** For every statement, every
    list of calls with any backends, parameters and accessors, and one more call: a statement with
    dynamic parts gives it the outcome of a first call. One without gives it what its maker has
    made, the first call with the same style: the same failure, or the same SQL, bindings and
    values, and markers that are the same but for the types of those that read the dialect. So the
    outcome is that of a first call whenever its maker has the dialect of the call, and whenever no
    marker reads it. -/
theorem late_fresh (id : String) (root : Template) (calls : List Call) (c : Call) :
    (root.isDynamic = true → late id root calls c = fresh id root c) ∧
    (root.isDynamic = false → late id root calls c = reused id root (maker calls c) c) ∧
    Recalls (fresh id root c) (late id root calls c) ∧
    ((maker calls c).backend.settings.databaseId = c.backend.settings.databaseId →
      late id root calls c = fresh id root c) ∧
    ∀ q, fresh id root c = .ok q →
      (∀ m ∈ q.markers, ¬m.ReadsDialect) →
        late id root calls c = .ok q := by
  cases hd : root.isDynamic with
  | true =>
    have heq : late id root calls c = fresh id root c := by
      unfold fresh late
      rw [after_dynamic (s := ofTemplate id root) hd, after_dynamic (s := ofTemplate id root) hd]
    refine ⟨fun _ => heq, fun h => absurd h Bool.noConfusion, ?_, fun _ => heq,
      fun q hq _ => heq.trans hq⟩
    rw [heq]
    exact .refl _
  | false =>
    have hlate (calls : List Call) : late id root calls c = reused id root (maker calls c) c :=
      render_after (s := ofTemplate id root) hd rfl calls
    have hfresh : fresh id root c = reused id root c c := hlate []
    have hrecalls : Recalls (fresh id root c) (late id root calls c) := by
      rw [hlate, hfresh]
      exact reused_recalls id hd (style_maker calls c) c
    refine ⟨fun h => absurd h Bool.noConfusion, fun _ => hlate calls, hrecalls, fun hdb => ?_,
      fun q hq hm => ?_⟩
    · rw [hlate, hfresh, reused_congr id hd (style_maker calls c) hdb]
    · rw [hq] at hrecalls
      exact hrecalls.eq hm

/-- A call for a dialect, and one for none. -/
def dialectCalls : Call × Call :=
  ({ backend := { engine := { evaluate := fun _ _ => .ok .null }
                  settings := { databaseId := some "pg" } }
     parameter := .null },
   { backend := { engine := { evaluate := fun _ _ => .ok .null } }
     parameter := .null })

/-- A template that does not read the dialect. -/
def idTemplate : Template := .ofText "#{id}"

/-- The call for none has the outcome of a first call although another dialect came before. -/
theorem idTemplate_recalled :
    ∃ q, fresh "s" idTemplate dialectCalls.2 = .ok q ∧
      late "s" idTemplate [dialectCalls.1] dialectCalls.2 = .ok q := by
  have hroots : (fresh "s" idTemplate dialectCalls.2).map
      (fun q => q.markers.map fun m => Bindings.rootName? m.property) = .ok [some "id"] := by
    decide +kernel
  cases hq : fresh "s" idTemplate dialectCalls.2 with
  | error e =>
    rw [hq] at hroots
    cases hroots
  | ok q =>
    rw [hq] at hroots
    have hm : ∀ m ∈ q.markers, ¬m.ReadsDialect := by
      intro m hm hd
      have hroot : Bindings.rootName? m.property ∈ [some "id"] := by
        rw [← Except.ok.inj hroots]
        exact List.mem_map_of_mem hm
      have heq : some "id" = some Bindings.databaseName := (List.mem_singleton.mp hroot).symm.trans hd
      exact absurd (Option.some.inj heq) (by decide)
    exact ⟨q, rfl, (late_fresh "s" idTemplate [dialectCalls.1] dialectCalls.2).2.2.2.2 q hq hm⟩

/-- A template that reads the dialect. -/
def dialectTemplate : Template := .ofText "#{_databaseId}"

/-- The types of the markers of an outcome. -/
def valueTypes (outcome : Except RenderError Query) : List ParamType :=
  match outcome with
  | .ok q => q.markers.map Marker.valueType
  | .error _ => []

/-- **The dialect of the first call shows in a later one**: its marker is declared as a string where
    nothing is bound to it and a first call leaves the type open. -/
theorem dialect_remembered : ¬∀ (id : String) (root : Template) (calls : List Call) (c : Call),
    late id root calls c = fresh id root c := by
  intro h
  have hlate : valueTypes (late "s" dialectTemplate [dialectCalls.1] dialectCalls.2) = [.string] := by
    decide +kernel
  have hfresh : valueTypes (fresh "s" dialectTemplate dialectCalls.2) = [.any] := by
    decide +kernel
  rw [h, hfresh] at hlate
  cases hlate

end Statement

end SqlTemplate
