import Mathlib.Data.List.Forall2
import SqlTemplate.Proofs.TokenGrammar

/-!
# Markers and values in line

The markers of a query stand in its SQL, in its list of markers and, as positions, with the values
to bind. All three are counted off the contents of the text.

* `mapM_ok`, `mapM_error`: a list of steps succeeds when each does, and fails where the first does;
* `refusal?`: why a content describes no marker, whatever the bindings are;
* `Query.Finalizes`: what finalizing a text comes to, in terms of its contents;
* `Query.Binds`: what the values of a query are, in terms of its markers;
* `Query.finalize_aligned`: both hold for every text, style, engine and all bindings.
-/

namespace SqlTemplate

/-! ## 1. Steps that fail -/

section Steps

variable {α β ε : Type} {f : α → Except ε β} {xs : List α}

/-- A step fails with an error, and the steps in front of it succeed. -/
def FailsFirst (f : α → Except ε β) (xs : List α) (e : ε) : Prop :=
  ∃ before x after, xs = before ++ x :: after ∧ (∀ b ∈ before, ∃ y, f b = .ok y) ∧ f x = .error e

theorem FailsFirst.head {x : α} {e : ε} (xs : List α) (h : f x = .error e) :
    FailsFirst f (x :: xs) e := by
  refine ⟨[], x, xs, rfl, fun b hb => ?_, h⟩
  cases hb

theorem FailsFirst.tail {x : α} {y : β} {e : ε} (hx : f x = .ok y) (h : FailsFirst f xs e) :
    FailsFirst f (x :: xs) e := by
  obtain ⟨before, x', after, rfl, hbefore, hx'⟩ := h
  exact ⟨x :: before, x', after, rfl, List.forall_mem_cons.mpr ⟨⟨y, hx⟩, hbefore⟩, hx'⟩

theorem mapM_cons_ok {x : α} {y : β} (h : f x = .ok y) :
    (x :: xs).mapM f = (xs.mapM f).map (y :: ·) := by
  rw [List.mapM_cons, h]
  cases xs.mapM f with
  | error e => rfl
  | ok ys => rfl

theorem mapM_cons_error {x : α} {e : ε} (h : f x = .error e) : (x :: xs).mapM f = .error e := by
  rw [List.mapM_cons, h]
  rfl

/-- A list of steps succeeds when each of them does. -/
theorem mapM_ok {ys : List β} :
    xs.mapM f = .ok ys ↔ List.Forall₂ (fun x y => f x = .ok y) xs ys := by
  induction xs generalizing ys with
  | nil =>
    rw [List.mapM_nil, List.forall₂_nil_left_iff]
    exact ⟨fun h => (Except.ok.inj h).symm, fun h => congrArg Except.ok h.symm⟩
  | cons x xs ih =>
    rw [List.forall₂_cons_left_iff]
    cases hx : f x with
    | error e =>
      rw [mapM_cons_error hx]
      constructor
      · intro h
        cases h
      · rintro ⟨y, ys', h, -⟩
        cases h
    | ok y =>
      rw [mapM_cons_ok hx]
      constructor
      · intro h
        cases hr : xs.mapM f with
        | error e =>
          rw [hr] at h
          cases h
        | ok ys' =>
          rw [hr] at h
          cases h
          exact ⟨y, ys', rfl, ih.mp hr, rfl⟩
      · rintro ⟨y', ys', h, hr, rfl⟩
        cases h
        rw [ih.mpr hr]
        rfl

/-- A list of steps fails with the error of the first step that does. -/
theorem mapM_error {e : ε} : xs.mapM f = .error e ↔ FailsFirst f xs e := by
  induction xs with
  | nil =>
    constructor
    · intro h
      cases h
    · rintro ⟨before, x, after, h, -⟩
      exact absurd h (List.append_ne_nil_of_right_ne_nil _ (List.cons_ne_nil _ _)).symm
  | cons x xs ih =>
    cases hx : f x with
    | error e' =>
      rw [mapM_cons_error hx]
      constructor
      · intro h
        cases h
        exact .head xs hx
      · rintro ⟨before, x', after, h, hbefore, hx'⟩
        cases before with
        | nil =>
          cases h
          cases hx.symm.trans hx'
          rfl
        | cons b before =>
          cases h
          obtain ⟨y, hy⟩ := hbefore _ List.mem_cons_self
          cases hx.symm.trans hy
    | ok y =>
      have hmap : (x :: xs).mapM f = .error e ↔ xs.mapM f = .error e := by
        rw [mapM_cons_ok hx]
        cases xs.mapM f with
        | error e' => exact Iff.rfl
        | ok ys => exact ⟨fun h => (nomatch h), fun h => (nomatch h)⟩
      rw [hmap, ih]
      constructor
      · exact .tail hx
      · rintro ⟨before, x', after, h, hbefore, hx'⟩
        cases before with
        | nil =>
          cases h
          cases hx.symm.trans hx'
        | cons b before =>
          cases h
          exact ⟨before, x', after, rfl, fun b hb => hbefore b (List.mem_cons_of_mem _ hb), hx'⟩

/-- A list of steps succeeds if none of them fails. -/
theorem exists_mapM_ok : (∃ ys, xs.mapM f = .ok ys) ↔ ∀ x ∈ xs, ∃ y, f x = .ok y := by
  constructor
  · rintro ⟨ys, h⟩
    rw [mapM_ok] at h
    induction h with
    | nil => exact fun x hx => absurd hx List.not_mem_nil
    | cons hxy _ ih => exact List.forall_mem_cons.mpr ⟨⟨_, hxy⟩, ih⟩
  · intro h
    cases hr : xs.mapM f with
    | ok ys => exact ⟨ys, rfl⟩
    | error e =>
      obtain ⟨before, x, after, rfl, -, hx⟩ := mapM_error.mp hr
      obtain ⟨y, hy⟩ := h x (List.mem_append_cons_self)
      cases hx.symm.trans hy

theorem mapM_congr_mem {g : α → Except ε β} (h : ∀ x ∈ xs, f x = g x) : xs.mapM f = xs.mapM g := by
  induction xs with
  | nil => rfl
  | cons x xs ih =>
    rw [List.mapM_cons, List.mapM_cons, h x List.mem_cons_self,
      ih fun x hx => h x (List.mem_cons_of_mem _ hx)]

/-- What is made of the results does not matter for a failure. -/
theorem failsFirst_map {γ : Type} (g : α → β → γ) (e : ε) :
    FailsFirst (fun x => (f x).map (g x)) xs e ↔ FailsFirst f xs e := by
  have hok (x : α) : (∃ z, (f x).map (g x) = .ok z) ↔ ∃ y, f x = .ok y := by
    cases f x with
    | error e' => exact ⟨fun ⟨_, h⟩ => (nomatch h), fun ⟨_, h⟩ => (nomatch h)⟩
    | ok y => exact ⟨fun _ => ⟨y, rfl⟩, fun _ => ⟨g x y, rfl⟩⟩
  have herror (x : α) : (f x).map (g x) = .error e ↔ f x = .error e := by
    cases f x with
    | error e' => exact Iff.of_eq ((Except.error.injEq _ _).trans (Except.error.injEq _ _).symm)
    | ok y => exact ⟨fun h => (nomatch h), fun h => (nomatch h)⟩
  unfold FailsFirst
  simp only [hok, herror]

end Steps

/-! ## 2. Contents -/

/-- Why a content describes no marker; `none` when it describes one. -/
def refusal? (content : List Char) : Option RenderError :=
  match Marker.ofContent content {} with
  | .ok _ => none
  | .error e => some e

/-- Bindings neither make a content acceptable nor tell why it is not. -/
theorem ofContent_error (content : List Char) (b : Bindings) (e : RenderError) :
    Marker.ofContent content b = .error e ↔ refusal? content = some e := by
  have h := ofContent_untyped content b {}
  unfold refusal?
  cases hb : Marker.ofContent content b with
  | error e' =>
    cases h₀ : Marker.ofContent content {} with
    | error e₀ =>
      rw [hb, h₀] at h
      cases h
      rw [Except.error.injEq, Option.some.injEq]
    | ok m₀ =>
      rw [hb, h₀] at h
      cases h
  | ok m =>
    cases h₀ : Marker.ofContent content {} with
    | error e₀ =>
      rw [hb, h₀] at h
      cases h
    | ok m₀ => exact ⟨fun h => (nomatch h), fun h => (nomatch h)⟩

theorem exists_ofContent (content : List Char) (b : Bindings) :
    (∃ m, Marker.ofContent content b = .ok m) ↔ refusal? content = none := by
  constructor
  · rintro ⟨m, hm⟩
    cases hr : refusal? content with
    | none => rfl
    | some e =>
      rw [← ofContent_error content b] at hr
      cases hm.symm.trans hr
  · intro hr
    cases hb : Marker.ofContent content b with
    | ok m => exact ⟨m, rfl⟩
    | error e =>
      rw [(ofContent_error content b e).mp hb] at hr
      cases hr

/-- The first content of a list that describes no marker is refused. -/
def RefusedFirst (contents : List (List Char)) (e : RenderError) : Prop :=
  ∃ before content after, contents = before ++ content :: after ∧
    (∀ c ∈ before, refusal? c = none) ∧ refusal? content = some e

/-- The contents that describe markers describe them one by one. -/
theorem ofContents_ok_iff {bindings : Bindings} {contents : List (List Char)} {ms : List Marker} :
    ofContents bindings contents = .ok ms ↔
      List.Forall₂ (fun content m => Marker.ofContent content bindings = .ok m) contents ms := mapM_ok

theorem ofContents_error_iff (bindings : Bindings) (contents : List (List Char)) (e : RenderError) :
    ofContents bindings contents = .error e ↔ RefusedFirst contents e := by
  unfold ofContents
  rw [mapM_error]
  unfold FailsFirst RefusedFirst
  simp only [exists_ofContent, ofContent_error]

/-- A content that is refused is refused whatever the bindings are. -/
theorem ofContents_refused {b : Bindings} {contents : List (List Char)} {e : RenderError}
    (h : ofContents b contents = .error e) (b' : Bindings) : ofContents b' contents = .error e :=
  (ofContents_error_iff b' contents e).mpr ((ofContents_error_iff b contents e).mp h)

theorem exists_ofContents (bindings : Bindings) (contents : List (List Char)) :
    (∃ ms, ofContents bindings contents = .ok ms) ↔ ∀ c ∈ contents, refusal? c = none := by
  unfold ofContents
  rw [exists_mapM_ok]
  simp only [exists_ofContent]

/-! ## 3. SQL -/

/-- The markers of a style, from a position on. -/
def markersFrom (style : MarkerStyle) (position count : Nat) : List (Option (List Char)) :=
  (List.range' position count).map fun i => some (style.marker i).toList

/-- Numbering the tokens of a text is assembling it with the markers as replies. -/
theorem numberFrom_eq_assemble (style : MarkerStyle) (position : Nat) (ps : List Piece) :
    numberFrom style position ps = Delimiters.bind.assemble ps
      (markersFrom style position (ps.filterMap Piece.content?).length) := by
  induction ps generalizing position with
  | nil => rfl
  | cons p ps ih =>
    cases hc : p.content? with
    | none =>
      rw [Query.numberFrom_plain style position hc, Delimiters.assemble_plain hc, ih,
        List.filterMap_cons_none hc]
    | some content =>
      obtain rfl := p.eq_token_of_content? hc
      rw [List.filterMap_cons_some hc, List.length_cons, markersFrom, List.range'_succ, List.map_cons]
      show (style.marker position).toList ++ numberFrom style (position + 1) ps = _
      rw [ih]
      rfl

namespace Query

/-- What finalizing a text comes to. -/
structure Finalizes (style : MarkerStyle) (text : String) (bindings : Bindings)
    (spans : List Span) : Prop where
  /-- There is a query if each content is acceptable. -/
  succeeds : (∃ q, finalize style text bindings = .ok q) ↔
    ∀ c ∈ spans.filterMap Span.content?, refusal? c = none
  /-- Else the first content that is not is refused. -/
  fails : ∀ e, finalize style text bindings = .error e ↔
    RefusedFirst (spans.filterMap Span.content?) e
  /-- The SQL has the markers in place of the tokens, in order. -/
  sql : ∀ q, finalize style text bindings = .ok q → q.sql.toList =
    Delimiters.bind.assemble (spans.map Span.piece) (markersFrom style 1 q.markers.length)
  /-- Each content describes the marker in its place. -/
  markers : ∀ q, finalize style text bindings = .ok q → List.Forall₂
    (fun content m => Marker.ofContent content bindings = .ok m)
    (spans.filterMap Span.content?) q.markers
  /-- Styles only differ in the SQL. -/
  styles : ∀ style', (finalize style' text bindings).map Query.markers =
    (finalize style text bindings).map Query.markers
  kept : ∀ q, finalize style text bindings = .ok q → q.bindings = bindings

/-- A query has the markers of its contents, its SQL and the bindings. -/
theorem finalize_ok {style : MarkerStyle} {text : String} {bindings : Bindings} {q : Query}
    (h : finalize style text bindings = .ok q) :
    ofContents bindings (Delimiters.bind.contents text.toList) = .ok q.markers ∧
      q.sql = markedText style text ∧ q.bindings = bindings := by
  rw [finalize_eq] at h
  cases ho : ofContents bindings (Delimiters.bind.contents text.toList) with
  | error e =>
    rw [ho] at h
    cases h
  | ok ms =>
    rw [ho] at h
    cases h
    exact ⟨rfl, rfl, rfl⟩

theorem finalizes_of_pieces (style : MarkerStyle) {text : String} (bindings : Bindings)
    {spans : List Span} (h : spans.map Span.piece = Delimiters.bind.pieces text.toList) :
    Finalizes style text bindings spans where
  succeeds := by
    rw [← exists_ofContents bindings, finalize_eq, Delimiters.contents_eq_filterMap h]
    cases ofContents bindings (spans.filterMap Span.content?) with
    | error e => exact ⟨fun ⟨_, h⟩ => (nomatch h), fun ⟨_, h⟩ => (nomatch h)⟩
    | ok ms => exact ⟨fun _ => ⟨ms, rfl⟩, fun _ => ⟨_, rfl⟩⟩
  fails e := by
    rw [← ofContents_error_iff bindings, finalize_eq, Delimiters.contents_eq_filterMap h]
    cases ofContents bindings (spans.filterMap Span.content?) with
    | error e => exact Iff.of_eq ((Except.error.injEq _ _).trans (Except.error.injEq _ _).symm)
    | ok ms => exact ⟨fun h => (nomatch h), fun h => (nomatch h)⟩
  sql q hq := by
    obtain ⟨hm, hsql, -⟩ := finalize_ok hq
    rw [hsql, markedText, String.toList_ofList, numberFrom_eq_assemble, ← h,
      ← (ofContents_ok_iff.mp hm).length_eq, Delimiters.contents_eq, ← h]
  markers q hq := by
    rw [← Delimiters.contents_eq_filterMap h]
    exact ofContents_ok_iff.mp (finalize_ok hq).1
  kept q hq := (finalize_ok hq).2.2
  styles style' := by
    rw [finalize_eq, finalize_eq]
    cases ofContents bindings (Delimiters.bind.contents text.toList) with
    | error e => rfl
    | ok ms => rfl

/-! ## 4. Values -/

/-- The markers that a driver reads, each with its position. -/
def inputs (q : Query) : List (Marker × Nat) :=
  (q.markers.zipIdx 1).filter fun input => input.1.direction != .output

/-- What the values of a query are. -/
structure Binds (q : Query) (engine : Engine) : Prop where
  /-- There is a value for each marker that is read, at the position of the marker. -/
  values : ∀ bounds, q.values engine = .ok bounds ↔ List.Forall₂
    (fun input bound => bound.position = input.2 ∧
      input.1.resolve q.bindings engine = .ok bound.value) q.inputs bounds
  /-- The error is that of the first marker that is read and has no value. -/
  fails : ∀ e, q.values engine = .error e ↔
    FailsFirst (fun input => input.1.resolve q.bindings engine) q.inputs e
  increasing : ∀ bounds, q.values engine = .ok bounds →
    (bounds.map Bound.position).Pairwise (· < ·)
  /-- Expressions of the other markers are never evaluated. -/
  unasked : ∀ engine' : Engine, (∀ m ∈ q.markers, m.direction ≠ .output → ∀ x, m.expression = some x →
    engine'.evaluate x q.bindings = engine.evaluate x q.bindings) → q.values engine' = q.values engine

/-- The value of a marker that is read, at its position. -/
def bindInput (bindings : Bindings) (engine : Engine) (input : Marker × Nat) :
    Except RenderError Bound :=
  (input.1.resolve bindings engine).map (⟨input.2, ·⟩)

theorem isInput_eq (direction : Direction) : direction.isInput = (direction != .output) := by
  cases direction with
  | input => rfl
  | output => rfl
  | inputOutput => rfl

/-- The values are bound one marker after the other. -/
theorem valuesFrom_eq (bindings : Bindings) (engine : Engine) (position : Nat) (ms : List Marker) :
    valuesFrom bindings engine position ms =
      ((ms.zipIdx position).filter fun input => input.1.direction != .output).mapM
        (bindInput bindings engine) := by
  induction ms generalizing position with
  | nil => rfl
  | cons m ms ih =>
    rw [valuesFrom, isInput_eq, List.zipIdx_cons, List.filter_cons, ih]
    cases hd : m.direction != .output with
    | false => rfl
    | true =>
      rw [if_pos rfl, if_pos rfl, List.mapM_cons]
      unfold bindInput
      cases m.resolve bindings engine with
      | error e => rfl
      | ok v => rfl

theorem values_eq (q : Query) (engine : Engine) :
    q.values engine = q.inputs.mapM (bindInput q.bindings engine) :=
  valuesFrom_eq q.bindings engine 1 q.markers

theorem bindInput_ok {bindings : Bindings} {engine : Engine} {input : Marker × Nat} {bound : Bound} :
    bindInput bindings engine input = .ok bound ↔
      bound.position = input.2 ∧ input.1.resolve bindings engine = .ok bound.value := by
  obtain ⟨position, value⟩ := bound
  unfold bindInput
  cases input.1.resolve bindings engine with
  | error e => exact ⟨fun h => (nomatch h), fun ⟨_, h⟩ => (nomatch h)⟩
  | ok v =>
    constructor
    · intro h
      cases h
      exact ⟨rfl, rfl⟩
    · rintro ⟨rfl, h⟩
      cases h
      rfl

/-- The positions of values are those of the markers that are read. -/
theorem map_position {q : Query} {engine : Engine} {bounds : List Bound}
    (h : q.values engine = .ok bounds) : bounds.map Bound.position = q.inputs.map Prod.snd := by
  rw [values_eq, mapM_ok] at h
  have heq : List.Forall₂ (· = ·) (bounds.map Bound.position) (q.inputs.map Prod.snd) := by
    rw [List.forall₂_map_left_iff, List.forall₂_map_right_iff]
    exact (h.imp fun _ _ hb => (bindInput_ok.mp hb).1).flip
  exact List.forall₂_eq_eq_eq ▸ heq

theorem inputs_increasing (q : Query) : (q.inputs.map Prod.snd).Pairwise (· < ·) := by
  have hsub : (q.inputs.map Prod.snd).Sublist (List.range' 1 q.markers.length) := by
    rw [← List.zipIdx_map_snd]
    exact List.Sublist.map Prod.snd List.filter_sublist
  exact (List.pairwise_lt_range' 1).sublist hsub

/-- The values of a query are those of its markers. -/
theorem binds (q : Query) (engine : Engine) : q.Binds engine where
  values bounds := by
    rw [values_eq, mapM_ok]
    simp only [bindInput_ok]
  fails e := by
    rw [values_eq, mapM_error]
    exact failsFirst_map _ e
  increasing bounds h := by
    rw [map_position h]
    exact q.inputs_increasing
  unasked engine' h := by
    rw [values_eq, values_eq]
    refine mapM_congr_mem fun input hinput => ?_
    obtain ⟨hmem, hd⟩ := List.mem_filter.mp hinput
    have hm := List.fst_mem_of_mem_zipIdx hmem
    unfold bindInput Marker.resolve
    cases hx : input.1.expression with
    | none => rfl
    | some x => exact congrArg _ (h input.1 hm (bne_iff_ne.mp hd) x hx)

/-! ## 5. Alignment -/

/-- **Markers, SQL and values are in line.** They follow the contents of the one reading of the
    text, for every style, and the values do for every engine. -/
theorem finalize_aligned (style : MarkerStyle) (text : String) (bindings : Bindings) :
    ∃ spans, Delimiters.bind.IsReading text.toList spans ∧
      Finalizes style text bindings spans ∧
      ∀ q, finalize style text bindings = .ok q → ∀ engine, q.Binds engine := by
  obtain ⟨spans, hreading, hpieces⟩ :=
    Delimiters.isReading_pieces (d := Delimiters.bind) rfl rfl text.toList
  exact ⟨spans, hreading, finalizes_of_pieces style bindings hpieces, fun q _ => q.binds⟩

/-- An escaped placeholder and one that is never closed have no marker, and one that is only written
    to has a marker and no value. -/
example : (do
      let q ← finalize .dollarNumbered
        "a = #\x7ba\x7d, b = \\#\x7bb\x7d, c = #\x7bc,mode=OUT\x7d, d = #\x7bd\x7d, e = #\x7be"
        { entries := [("a", .int 1), ("d", .int 4)] }
      let bounds ← q.values { evaluate := fun _ _ => .ok .null }
      return (q.sql, bounds.map Bound.position)) =
    .ok ("a = $1, b = #\x7bb\x7d, c = $2, d = $3, e = #\x7be", [1, 3]) := by
  decide +kernel

end Query

end SqlTemplate
