import SqlTemplate.Proofs.DeferredBinding

/-!
# Computed placeholders

The expression of a computed placeholder is evaluated once the render is over, like the path of any
other one. Renaming changes leading names alone and passes an expression by, so that nothing
redirects it to the element that it was written for.

* `Computes`: a content asks for the value of an expression;
* `Layer.rename_computed`: renaming leaves such contents as they are;
* `run_computed`: the computed contents that come out of a run are those of its journal, in their
  places;
* `Engine.Ignores`: an expression whose value does not depend on given names;
* `Backend.render_computed`: a computed placeholder is bound to the value that its expression has in
  the end, when the variables of all loops stand for what they stood for before the render. That is
  the value at the moment of writing if the expression ignores the variables.
-/

namespace SqlTemplate

open Text (isBlank)

/-! ## 1. Expressions in parentheses -/

/-- Whether a content asks for the value of an expression. -/
def Computes (content : List Char) (x : String) : Prop :=
  ∃ p, Placeholder.parse content = .ok p ∧ p.target = .expression x

/-- A computed target starts with a parenthesis. -/
theorem outline_computed {content : List Char} {o : Placeholder.Outline}
    (h : Placeholder.outline content = .ok o) (hc : o.computed = true) :
    (content.dropWhile Placeholder.isSkipped).head? = some '(' := by
  by_contra hh
  obtain ⟨part, stop, ho, -⟩ := Placeholder.outlineTarget_path
    ((Text.Cursor.ofText content).skipWhile Placeholder.isSkipped).offset hh
  have ho : Placeholder.outlineTarget
      ((Text.Cursor.ofText content).skipWhile Placeholder.isSkipped) = .ok (false, part, _) := ho
  unfold Placeholder.outline at h
  simp only [ho, bind, Except.bind] at h
  split at h
  · cases h
  · split at h
    · cases h
    · cases h
      cases hc

theorem Computes.head {content : List Char} {x : String} (h : Computes content x) :
    (content.dropWhile Placeholder.isSkipped).head? = some '(' := by
  obtain ⟨p, hp, ht⟩ := h
  cases ho : Placeholder.outline content with
  | error reason =>
    unfold Placeholder.parse at hp
    simp only [ho, bind, Except.bind] at hp
    cases hp
  | ok o =>
    rw [Placeholder.parse_of_outline ho] at hp
    cases hopt : Placeholder.optionsOf (o.options.map Text.Part.raw) with
    | error reason =>
      rw [hopt] at hp
      cases hp
    | ok options =>
      rw [hopt] at hp
      cases hp
      cases hc : o.computed with
      | true => exact outline_computed ho hc
      | false =>
        simp only [hc, Bool.false_eq_true, ↓reduceIte] at ht
        cases ht

/-- Whether a character can stand in front of an expression in parentheses, or open them. -/
def opensExpression (c : Char) : Bool := c == '(' || Placeholder.isSkipped c

/-- Whether no variable of a loop can be taken for the start of an expression in parentheses, and
    none of its texts holds a placeholder. -/
structure Loop.PassesExpressions (l : Loop) : Prop where
  names : ∀ n ∈ l.names, ∀ c, n.toList.head? = some c → opensExpression c = false
  texts : ∀ x ∈ l.opening.toList ++ l.separator.toList ++ l.closing.toList,
    Text.occursIn Delimiters.bind.opening x.toList = false

/-- What does not start an expression does not start one behind blanks either. -/
theorem head?_dropWhile_isSkipped {blanks : List Char} (hb : ∀ c ∈ blanks, isBlank c = true)
    {c : Char} (hc : opensExpression c = false) (cs : List Char) :
    ((blanks ++ c :: cs).dropWhile Placeholder.isSkipped).head? ≠ some '(' := by
  obtain ⟨hparen, hskip⟩ := Bool.or_eq_false_iff.mp hc
  induction blanks with
  | nil =>
    rw [List.nil_append, List.dropWhile_cons_of_neg (ne_true_of_eq_false hskip), List.head?_cons]
    exact fun h => beq_eq_false_iff_ne.mp hparen (Option.some.inj h)
  | cons b blanks ih =>
    rw [List.cons_append]
    cases hs : Placeholder.isSkipped b with
    | true =>
      rw [List.dropWhile_cons_of_pos hs]
      exact ih fun d hd => hb d (List.mem_cons_of_mem b hd)
    | false =>
      rw [List.dropWhile_cons_of_neg (ne_true_of_eq_false hs), List.head?_cons]
      intro h
      have hblank := hb b List.mem_cons_self
      rw [Option.some.inj h] at hblank
      cases hblank

/-- A name that cannot be taken for the start of an expression is not found in one. -/
theorem renameLeading?_computed {name : String}
    (hn : ∀ c, name.toList.head? = some c → opensExpression c = false) (suffix : Nat)
    {content : List Char} {x : String} (h : Computes content x) :
    renameLeading? name suffix content = none := by
  cases hr : renameLeading? name suffix content with
  | none => rfl
  | some renamed =>
    obtain ⟨hne, blanks, rest, hcontent, hb, -⟩ := Layer.renameLeading?_some hr
    cases hname : name.toList with
    | nil => exact absurd hname hne
    | cons c cs =>
      have hc := hn c (by rw [hname]; rfl)
      rw [hname, List.cons_append] at hcontent
      have hhead := h.head
      rw [hcontent] at hhead
      exact absurd hhead (head?_dropWhile_isSkipped hb hc _)

/-- **Renaming leaves computed placeholders as they are.** -/
theorem Layer.rename_computed {l : Loop} (hl : l.PassesExpressions) (suffix : Nat)
    {content : List Char} {x : String} (h : Computes content x) :
    rename l.item l.index suffix content = content := by
  have item : (l.item.bind fun name => renameLeading? name suffix content) = none := by
    cases hi : l.item with
    | none => rfl
    | some name =>
      exact renameLeading?_computed (hl.names name (Loop.mem_names.mpr (.inl hi))) suffix h
  have index : (l.index.bind fun name => renameLeading? name suffix content) = none := by
    cases hi : l.index with
    | none => rfl
    | some name =>
      exact renameLeading?_computed (hl.names name (Loop.mem_names.mpr (.inr hi))) suffix h
  unfold rename
  rw [item, index]

/-! ## 2. The markers of expressions -/

namespace Marker

/-- Options do not touch the expression of a marker. -/
theorem addOption_expression {m : Marker} {declared : Option ParamType} {key value : String}
    {found : Marker × Option ParamType} (h : m.addOption declared key value = .ok found) :
    found.1.expression = m.expression := by
  unfold addOption at h
  split at h
  · split at h
    · cases h
      rfl
    · cases h
  · cases h
    rfl
  · split at h
    · cases h
      rfl
    · cases h
  · split at h
    · cases h
      rfl
    · cases h
  · cases h
    rfl
  · cases h
    rfl
  · cases h
    rfl
  · cases h

theorem addOptions_expression {options : List (String × String)} {m : Marker}
    {declared : Option ParamType} {found : Marker × Option ParamType}
    (h : m.addOptions declared options = .ok found) : found.1.expression = m.expression := by
  induction options generalizing m declared with
  | nil =>
    cases h
    rfl
  | cons option rest ih =>
    obtain ⟨key, value⟩ := option
    rw [addOptions] at h
    cases ho : m.addOption declared key value with
    | error reason =>
      rw [ho] at h
      cases h
    | ok next =>
      rw [ho] at h
      exact (ih h).trans (addOption_expression ho)

/-- The marker of a computed placeholder has its expression. -/
theorem ofContent_computed {content : List Char} {x : String} (h : Computes content x)
    {bindings : Bindings} {m : Marker} (hm : ofContent content bindings = .ok m) :
    m.expression = some x := by
  obtain ⟨p, hp, ht⟩ := h
  unfold ofContent describe at hm
  simp only [hp, bind, Except.bind] at hm
  cases ho : ({ ofTarget p.target with jdbcType := p.jdbcType } : Marker).addOptions none
      p.options with
  | error reason =>
    rw [ho] at hm
    cases hm
  | ok found =>
    rw [ho] at hm
    cases hm
    have he := addOptions_expression ho
    rw [ht] at he
    exact he

theorem resolve_expression {m : Marker} {x : String} (h : m.expression = some x) (b : Bindings)
    (engine : Engine) : m.resolve b engine = engine.evaluate x b := by
  unfold resolve
  rw [h]

end Marker

/-! ## 3. Runs -/

variable {engine : Engine}

/-- **The computed contents that come out of a run are those of its journal**, in their places. -/
theorem run_computed {task : Task} {s s' : Scope} {out : List String} {js : List Event}
    (h : Run engine task s s' out js) (hl : ∀ l ∈ task.loops, l.PassesExpressions)
    (hw : ∀ f b, Event.appended f b ∈ js → Whole f) {outer : Entries}
    (ho : task.Within outer s.bindings.entries.kept) :
    ∃ ts, WholeAll out ts ∧
      List.Forall₂ (fun r content => ∀ x, Computes r.1 x → content = r.1) (readings js) ts := by
  refine run_contents (R := fun _ r content => ∀ x, Computes r.1 x → content = r.1) h
    (fun l hmem => (hl l hmem).texts) hw (fun _ _ _ _ _ _ _ => rfl) (fun l hmem k e _ => ?_) ho
  rintro s outer r content - - hr x hx
  rw [hr x hx]
  exact Layer.rename_computed (hl l hmem) k hx

/-! ## 4. Values -/

/-- Whether an engine has the same value for an expression under all bindings that agree outside of
    given names and of those that a render writes for itself. -/
def Engine.Ignores (engine : Engine) (names : List String) (x : String) : Prop :=
  ∀ b b', Bindings.AgreeOutside names b b' → engine.evaluate x b' = engine.evaluate x b

/-- A list of values that succeeds: the first marker is resolved if a driver reads it. -/
theorem valuesFrom_cons_ok {bindings : Bindings} {position : Nat} {m : Marker} {ms : List Marker}
    {bounds : List Query.Bound}
    (h : Query.valuesFrom bindings engine position (m :: ms) = .ok bounds) :
    ∃ others, Query.valuesFrom bindings engine (position + 1) ms = .ok others ∧
      ((m.direction.isInput = false ∧ bounds = others) ∨
        ∃ v, m.direction.isInput = true ∧ m.resolve bindings engine = .ok v ∧
          bounds = ⟨position, v⟩ :: others) := by
  rw [Query.valuesFrom] at h
  cases hd : m.direction.isInput with
  | false =>
    rw [hd] at h
    exact ⟨bounds, h, .inl ⟨rfl, rfl⟩⟩
  | true =>
    rw [hd] at h
    cases hv : m.resolve bindings engine with
    | error e =>
      rw [hv] at h
      cases h
    | ok v =>
      cases ho : Query.valuesFrom bindings engine (position + 1) ms with
      | error e =>
        rw [hv, ho] at h
        cases h
      | ok others =>
        rw [hv, ho] at h
        cases h
        exact ⟨others, rfl, .inr ⟨v, rfl, rfl, rfl⟩⟩

/-- The values of a query are those of the markers that a driver reads, each at its position. -/
theorem mem_valuesFrom {bindings : Bindings} {position : Nat} {ms : List Marker}
    {bounds : List Query.Bound} (h : Query.valuesFrom bindings engine position ms = .ok bounds)
    (bound : Query.Bound) :
    bound ∈ bounds ↔ ∃ i m, ms[i]? = some m ∧ m.direction.isInput = true ∧
      bound.position = position + i ∧ m.resolve bindings engine = .ok bound.value := by
  induction ms generalizing position bounds with
  | nil =>
    cases h
    constructor
    · intro hmem
      cases hmem
    · rintro ⟨i, m, hm, -⟩
      cases hm
  | cons m ms ih =>
    obtain ⟨others, ho, hcases⟩ := valuesFrom_cons_ok h
    have later : (∃ i m', (m :: ms)[i + 1]? = some m' ∧ m'.direction.isInput = true ∧
        bound.position = position + (i + 1) ∧ m'.resolve bindings engine = .ok bound.value) ↔
          bound ∈ others := by
      rw [ih ho]
      simp only [List.getElem?_cons_succ, Nat.add_assoc, Nat.add_comm 1]
    rcases hcases with ⟨hd, rfl⟩ | ⟨v, hd, hv, rfl⟩
    · rw [← later]
      constructor
      · rintro ⟨i, m', h⟩
        exact ⟨i + 1, m', h⟩
      · rintro ⟨i, m', hm, hin, h⟩
        cases i with
        | zero =>
          cases hm
          rw [hd] at hin
          cases hin
        | succ i => exact ⟨i, m', hm, hin, h⟩
    · rw [List.mem_cons, ← later]
      constructor
      · rintro (rfl | ⟨i, m', h⟩)
        · exact ⟨0, m, rfl, hd, rfl, hv⟩
        · exact ⟨i + 1, m', h⟩
      · rintro ⟨i, m', hm, hin, hpos, hval⟩
        cases i with
        | zero =>
          cases hm
          rw [hv] at hval
          left
          obtain ⟨p, w⟩ := bound
          cases hval
          cases hpos
          rfl
        | succ i => exact .inr ⟨i, m', hm, hin, hpos, hval⟩

/-- The markers of computed contents have their expressions, in their places. -/
theorem markers_computed {z : Bindings} {rs : List (List Char × Bindings)}
    {contents : List (List Char)}
    (h : List.Forall₂ (fun r content => ∀ x, Computes r.1 x → content = r.1) rs contents)
    {ms : List Marker} (hm : ofContents z contents = .ok ms) {i : Nat}
    {r : List Char × Bindings} (hr : rs[i]? = some r) {x : String} (hx : Computes r.1 x) :
    ∃ m, ms[i]? = some m ∧ m.expression = some x := by
  induction h generalizing ms i with
  | nil => cases hr
  | @cons r' content rs contents hc _ ih =>
    obtain ⟨m, others, hof, hms, rfl⟩ := ofContents_cons_ok hm
    cases i with
    | zero =>
      cases hr
      rw [hc x hx] at hof
      exact ⟨m, rfl, Marker.ofContent_computed hx hof⟩
    | succ i => exact ih hms hr

/-- What becomes of the computed placeholder at a place of a query, when it has been written while
    these were the bindings. -/
structure BoundLate (q : Query) (names : List String) (place : Nat) (x : String)
    (now : Bindings) : Prop where
  /-- It is bound to the value that its expression has in the end. -/
  last : ∃ m, q.markers[place]? = some m ∧ m.expression = some x ∧
    ∀ engine bounds, q.values engine = .ok bounds → ∀ v,
      (⟨place + 1, v⟩ ∈ bounds ↔
        m.direction.isInput = true ∧ engine.evaluate x q.bindings = .ok v)
  /-- That is the value of the moment if the expression ignores the names. -/
  moment : ∀ engine : Engine, engine.Ignores names x →
    engine.evaluate x q.bindings = engine.evaluate x now

/-- **Computed placeholders are bound in the end.** When no variable of a loop and none of its texts
    looks like an expression, and fragments escape nothing and close what they open, the marker of a
    computed placeholder has its expression, at the place where it is written, and is bound to the
    value of that expression in the last bindings. Those hold what they held before the render. So
    the value is the one of the moment when the placeholder is written for all expressions that
    ignore the variables of the loops; for others it need not be. -/
theorem Backend.render_computed {b : Backend} {t : Template} {parameter : Value}
    {accessor : Option Accessor} {q : Query} (hl : ∀ l ∈ t.loops, l.PassesExpressions)
    (h : b.render t parameter accessor = .ok q) :
    ∃ s' out js, Run b.engine (.template t)
        (.ofBindings (b.bindingsFor parameter accessor)) s' out js ∧
      q.bindings.entries.kept = (b.bindingsFor parameter accessor).entries.kept ∧
      ((∀ f now, Event.appended f now ∈ js → Whole f) →
        ∀ place content now x, (readings js)[place]? = some (content, now) → Computes content x →
          BoundLate q (Task.template t).variables place x now) := by
  unfold Backend.render Backend.renderScope at h
  cases ha : t.apply b.engine (.ofBindings (b.bindingsFor parameter accessor)) with
  | error e s =>
    rw [ha] at h
    cases h
  | ok r scope =>
    simp only [ha] at h
    obtain ⟨js, hr⟩ := run_of_apply t (.ofBindings (b.bindingsFor parameter accessor)) scope r ha
    have hkept : scope.bindings.entries.kept =
        (b.bindingsFor parameter accessor).entries.kept := run_keeps hr
    rw [Query.finalize_eq] at h
    cases hms : ofContents scope.bindings (Delimiters.bind.contents scope.text.toList) with
    | error e =>
      rw [hms] at h
      cases h
    | ok ms =>
      rw [hms] at h
      cases h
      refine ⟨scope.bare, scope.fragments, js, hr, hkept, fun hw place content now x hp hx => ?_⟩
      obtain ⟨ts, hts, hds⟩ := run_computed hr hl hw rfl
      rw [hts.contents_text] at hms
      obtain ⟨m, hm, he⟩ := markers_computed hds hms hp hx
      refine ⟨⟨m, hm, he, fun engine bounds hv v => ?_⟩, fun engine hi => ?_⟩
      · rw [mem_valuesFrom hv]
        constructor
        · rintro ⟨i, m', hm', hin, hpos, hval⟩
          obtain rfl : place = i := by
            have hpos : place + 1 = 1 + i := hpos
            omega
          rw [hm] at hm'
          cases hm'
          rw [Marker.resolve_expression he] at hval
          exact ⟨hin, hval⟩
        · rintro ⟨hin, hval⟩
          exact ⟨place, m, hm, hin, Nat.add_comm place 1,
            (Marker.resolve_expression he _ engine).trans hval⟩
      · obtain ⟨f, hj⟩ := mem_readings (List.mem_of_getElem? hp)
        obtain ⟨hnow, hlast⟩ := run_agreeOutside hr Task.mem_variables
        exact hi now _ ((hnow f now hj).symm.trans hlast)

/-- A name that neither belongs to a render nor is one of the given names ignores them. -/
theorem Engine.names_ignores {names : List String} {n : String} (hk : isKept n = true)
    (hn : n ∉ names) : Engine.names.Ignores names n := by
  intro b b' h
  have he := h.entries n hk hn
  show Except.ok ((b'.get? n).getD .null) = Except.ok ((b.get? n).getD .null)
  unfold Bindings.get?
  rw [he, h.source]

/-- A loop over `xs`. -/
def xsLoop : Loop :=
  { collection := "xs", item := some "x", index := some "i", separator := some "," }

theorem xsLoop_names :
    ∀ n ∈ xsLoop.names, ∀ c, n.toList.head? = some c → opensExpression c = false := by
  intro n hn c hc
  rcases Loop.mem_names.mp hn with hitem | hindex
  · cases hitem
    cases hc
    rfl
  · cases hindex
    cases hc
    rfl

/-- Something to loop over, and a limit. -/
def limitedParameter : Value := .map [(.str "limit", .int 9), (.str "xs", .seq [.int 5])]

/-- A placeholder in a loop that asks for the limit. -/
def limitLoop : Template := .loop xsLoop (.ofText "#{(limit)}")

/-- The limit is the same for all elements, and the placeholder is bound to it. -/
theorem limitLoop_computed :
    ∃ q s' out js,
      Backend.render { engine := .names } limitLoop limitedParameter none = .ok q ∧
      Run .names (.template limitLoop) (.ofBindings (.forParameter limitedParameter none none))
        s' out js ∧
      q.bindings.entries.kept = (Bindings.forParameter limitedParameter none none).entries.kept ∧
      Engine.names.Ignores (Task.template limitLoop).variables "limit" ∧
      ∀ place content now x, (readings js)[place]? = some (content, now) → Computes content x →
        BoundLate q (Task.template limitLoop).variables place x now := by
  have hl : ∀ l ∈ limitLoop.loops, l.PassesExpressions := by
    intro l hmem
    obtain rfl := List.mem_singleton.mp hmem
    exact ⟨xsLoop_names, by decide +kernel⟩
  have hi : Engine.names.Ignores (Task.template limitLoop).variables "limit" :=
    Engine.names_ignores (by decide +kernel) (by decide +kernel)
  have hw : ∀ l ∈ (Task.template limitLoop).literals, l.isDynamic = false ∧ Whole l.staticText := by
    intro l hmem
    obtain rfl := List.mem_singleton.mp hmem
    exact ⟨by decide +kernel, isUnescaped_of_not_mem (by decide +kernel),
      isClosed_of_token "(limit)".toList (by decide +kernel)⟩
  have hok : (Backend.render { engine := .names } limitLoop limitedParameter none).isOk = true := by
    decide +kernel
  cases hq : Backend.render { engine := .names } limitLoop limitedParameter none with
  | error e =>
    rw [hq] at hok
    cases hok
  | ok q =>
    obtain ⟨s', out, js, hr, hk, hb⟩ := Backend.render_computed hl hq
    exact ⟨q, s', out, js, rfl, hr, hk, hi, hb (run_static hr hw)⟩

/-- A placeholder in a loop that asks for the variable, as an expression. -/
def variableLoop : Template := .loop xsLoop (.ofText "#{(x)}")

/-- The scope in which the body of the loop is rendered for its only element. -/
def insideXs : Scope :=
  xsLoop.enter ⟨.int 0, .int 5⟩ (.ofBindings (.forParameter limitedParameter none none))

/-- **A computed placeholder does not see the element that it is written for**: the variable stands
    for five when the placeholder is written, and for nothing when it is bound. -/
theorem variableLoop_late :
    ∃ s' out js,
      Run .names (.template variableLoop)
        (.ofBindings (.forParameter limitedParameter none none)) s' out js ∧
      readings js = [("(x)".toList, insideXs.bindings)] ∧
      Engine.names.evaluate "x" insideXs.bindings = .ok (.int 5) ∧
      ((Backend.render { engine := .names } variableLoop limitedParameter none).bind
        fun q => q.values .names).map (List.map fun v => (v.position, v.value.isAbsent)) =
          .ok [(1, true)] := by
  have hbody : Run .names (.template (.ofText "#{(x)}")) insideXs insideXs
      [Literal.staticText { text := "#{(x)}" }]
      [.appended (Literal.staticText { text := "#{(x)}" }) insideXs.bindings] := by
    refine .literal ?_
    rw [Literal.scan_static (by decide +kernel)]
    rfl
  have hc : Delimiters.bind.contents (Literal.staticText { text := "#{(x)}" }).toList =
      ["(x)".toList] := by decide +kernel
  refine ⟨_, _, _, Run.loop rfl (Run.element hbody .done), ?_, rfl, by decide +kernel⟩
  show (Delimiters.bind.contents (Literal.staticText { text := "#{(x)}" }).toList).map _ ++ [] = _
  rw [hc]
  rfl

end SqlTemplate
