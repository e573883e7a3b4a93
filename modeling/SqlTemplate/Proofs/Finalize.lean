import SqlTemplate.Query
import SqlTemplate.Proofs.Tokens

/-!
# Finalization

What the SQL and the markers of a query are made of.

* `numberFrom`: the SQL, which depends on the text and on the style alone;
* `Query.finalize_eq`: the markers are those of the contents of the text, one after the other, and
  the first content that describes none is the failure;
* `Marker.untyped`, `ofContents_untyped`: bindings only tell the types of markers;
* `valuesFrom_untyped`: the values do not depend on the types.
-/

namespace SqlTemplate

/-! ## 1. SQL -/

/-- The pieces of a text with a marker in place of each token, counted from `position`. -/
def numberFrom (style : MarkerStyle) : Nat → List Piece → List Char
  | _, [] => []
  | position, p :: ps =>
    match p with
    | .token _ => (style.marker position).toList ++ numberFrom style (position + 1) ps
    | p => Delimiters.bind.fill id p ++ numberFrom style position ps

/-- The SQL of a text. -/
def markedText (style : MarkerStyle) (text : String) : String :=
  String.ofList (numberFrom style 1 (Delimiters.bind.pieces text.toList))

/-- The markers that contents describe. -/
def ofContents (bindings : Bindings) (contents : List (List Char)) :
    Except RenderError (List Marker) :=
  contents.mapM fun content => Marker.ofContent content bindings

theorem ofContents_cons (bindings : Bindings) (content : List Char) (rest : List (List Char)) :
    ofContents bindings (content :: rest) = (do
      let m ← Marker.ofContent content bindings
      let others ← ofContents bindings rest
      return m :: others) := List.mapM_cons

/-- Contents that describe markers describe them one by one. -/
theorem ofContents_cons_ok {bindings : Bindings} {content : List Char} {rest : List (List Char)}
    {ms : List Marker} (h : ofContents bindings (content :: rest) = .ok ms) :
    ∃ m others, Marker.ofContent content bindings = .ok m ∧
      ofContents bindings rest = .ok others ∧ ms = m :: others := by
  rw [ofContents_cons] at h
  cases hm : Marker.ofContent content bindings with
  | error e =>
    rw [hm] at h
    cases h
  | ok m =>
    cases ho : ofContents bindings rest with
    | error e =>
      rw [hm, ho] at h
      cases h
    | ok others =>
      rw [hm, ho] at h
      cases h
      exact ⟨m, others, rfl, rfl, rfl⟩

theorem Piece.eq_token_of_content? {p : Piece} {content : List Char}
    (h : p.content? = some content) : p = .token content := by
  cases p with
  | token c =>
    cases h
    rfl
  | text cs => cases h
  | escapedOpen => cases h
  | unterminated cs => cases h
  | overlap => cases h

namespace Query

/-- A token takes the marker of its content and its place in the SQL, unless it describes none. -/
theorem renderPiece_token (style : MarkerStyle) (bindings : Bindings) (content : List Char)
    (ms : List Marker) :
    (Delimiters.bind.renderPiece (takeMarker style bindings) (.token content)).run ms =
      (Marker.ofContent content bindings).map fun m =>
        ((style.marker (ms.length + 1)).toList, ms ++ [m]) := by
  simp only [Delimiters.renderPiece, takeMarker]
  cases Marker.ofContent content bindings with
  | error e => rfl
  | ok m => rfl

/-- Every other piece stands in the SQL as it is written. -/
theorem renderPiece_plain (style : MarkerStyle) (bindings : Bindings) {p : Piece}
    (h : p.content? = none) : Delimiters.bind.renderPiece (takeMarker style bindings) p =
      pure (Delimiters.bind.fill id p) := by
  cases p with
  | text cs => rfl
  | escapedOpen => rfl
  | token content => cases h
  | unterminated cs => rfl
  | overlap => rfl

theorem numberFrom_plain (style : MarkerStyle) (position : Nat) {p : Piece}
    (h : p.content? = none) (ps : List Piece) : numberFrom style position (p :: ps) =
      Delimiters.bind.fill id p ++ numberFrom style position ps := by
  cases p with
  | text cs => rfl
  | escapedOpen => rfl
  | token content => cases h
  | unterminated cs => rfl
  | overlap => rfl

/-- Rendering pieces for a query counts its markers and keeps them behind those that are there. -/
theorem renderPieces_takeMarker (style : MarkerStyle) (bindings : Bindings) (ps : List Piece)
    (ms : List Marker) :
    (Delimiters.bind.renderPieces (takeMarker style bindings) ps).run ms =
      (ofContents bindings (ps.filterMap Piece.content?)).map fun new =>
        (numberFrom style (ms.length + 1) ps, ms ++ new) := by
  induction ps generalizing ms with
  | nil =>
    show Except.ok ([], ms) = Except.ok ([], ms ++ [])
    rw [List.append_nil]
  | cons p ps ih =>
    rw [Delimiters.renderPieces, StateT.run_bind]
    cases hc : p.content? with
    | none =>
      rw [renderPiece_plain style bindings hc, List.filterMap_cons_none hc,
        numberFrom_plain style _ hc, StateT.run_pure, pure_bind, StateT.run_bind, ih]
      cases ofContents bindings (ps.filterMap Piece.content?) with
      | error e => rfl
      | ok new => rfl
    | some content =>
      obtain rfl := p.eq_token_of_content? hc
      rw [renderPiece_token, List.filterMap_cons_some hc, ofContents_cons]
      cases Marker.ofContent content bindings with
      | error e => rfl
      | ok m =>
        have hi := ih (ms ++ [m])
        rw [List.length_append] at hi
        show (do
          let others ← Delimiters.bind.renderPieces (takeMarker style bindings) ps
          pure ((style.marker (ms.length + 1)).toList ++ others)).run (ms ++ [m]) = _
        rw [StateT.run_bind, hi]
        cases ofContents bindings (ps.filterMap Piece.content?) with
        | error e => rfl
        | ok new =>
          show Except.ok (_, ms ++ [m] ++ new) = Except.ok (_, ms ++ m :: new)
          rw [List.append_assoc, List.singleton_append]
          rfl

/-- **A query is made of the contents of its text**: the SQL has a marker for each, and the markers
    are what the contents describe. -/
theorem finalize_eq (style : MarkerStyle) (text : String) (bindings : Bindings) :
    finalize style text bindings =
      (ofContents bindings (Delimiters.bind.contents text.toList)).map fun markers =>
        { sql := markedText style text, markers, bindings } := by
  unfold finalize Delimiters.scan
  rw [renderPieces_takeMarker, ← Delimiters.contents_eq]
  cases ofContents bindings (Delimiters.bind.contents text.toList) with
  | error e => rfl
  | ok markers => rfl

end Query

/-! ## 2. What bindings tell a marker -/

/-- A marker without the type of its value. -/
def Marker.untyped (m : Marker) : Marker := { m with valueType := .any }

theorem describe_untyped (content : List Char) (b b' : Bindings) :
    (Marker.describe content b).map Marker.untyped =
      (Marker.describe content b').map Marker.untyped := by
  unfold Marker.describe
  cases Placeholder.parse content with
  | error reason => rfl
  | ok placeholder =>
    cases h : ({ Marker.ofTarget placeholder.target with
        jdbcType := placeholder.jdbcType } : Marker).addOptions none placeholder.options with
    | error reason =>
      simp only [bind, Except.bind, h]
    | ok found =>
      simp only [bind, Except.bind, h]
      rfl

theorem ofContent_untyped (content : List Char) (b b' : Bindings) :
    (Marker.ofContent content b).map Marker.untyped =
      (Marker.ofContent content b').map Marker.untyped := by
  have h := describe_untyped content b b'
  unfold Marker.ofContent
  cases hb : Marker.describe content b with
  | error reason =>
    cases hb' : Marker.describe content b' with
    | error reason' =>
      rw [hb, hb'] at h
      cases h
      rfl
    | ok m' =>
      rw [hb, hb'] at h
      cases h
  | ok m =>
    cases hb' : Marker.describe content b' with
    | error reason' =>
      rw [hb, hb'] at h
      cases h
    | ok m' =>
      rw [hb, hb'] at h
      exact congrArg Except.ok (Except.ok.inj h)

/-- **Bindings tell nothing but the types of markers**: which contents are refused and everything
    else about the markers is the same for all of them. -/
theorem ofContents_untyped (contents : List (List Char)) (b b' : Bindings) :
    (ofContents b contents).map (List.map Marker.untyped) =
      (ofContents b' contents).map (List.map Marker.untyped) := by
  induction contents with
  | nil => rfl
  | cons content rest ih =>
    have step (b : Bindings) : (ofContents b (content :: rest)).map (List.map Marker.untyped) = (do
        let m ← (Marker.ofContent content b).map Marker.untyped
        let ms ← (ofContents b rest).map (List.map Marker.untyped)
        return m :: ms) := by
      rw [ofContents_cons]
      cases Marker.ofContent content b with
      | error e => rfl
      | ok m =>
        cases ofContents b rest with
        | error e => rfl
        | ok ms => rfl
    rw [step b, step b', ofContent_untyped content b b', ih]

/-- The values to bind do not depend on the types. -/
theorem valuesFrom_untyped (bindings : Bindings) (engine : Engine) (position : Nat)
    (ms : List Marker) :
    Query.valuesFrom bindings engine position (ms.map Marker.untyped) =
      Query.valuesFrom bindings engine position ms := by
  induction ms generalizing position with
  | nil => rfl
  | cons m ms ih =>
    have hd : m.untyped.direction = m.direction := rfl
    have hr : m.untyped.resolve bindings engine = m.resolve bindings engine := rfl
    rw [List.map_cons, Query.valuesFrom, Query.valuesFrom, hd, hr, ih]

end SqlTemplate
