import SqlTemplate.Backend
import SqlTemplate.Settings
import SqlTemplate.Proofs.TokenGrammar

/-!
# Configuration variables and escapes

What replacing configuration variables leaves of the rest of a text. The text is read again when it
is rendered, for the same delimiters, so what is not replaced should come out as it is written. It
does where nothing is escaped; an escape loses its backslash.

* `Delimiters.Reads`: the spans that stand in a reading;
* `Settings.expandSpan`, `Settings.leaveSpan`: what comes out of a span, and what should;
* `flatMap_eq_iff`: two texts made of the same spans are equal when their parts are;
* `Settings.expand_leaves`: a text is left as it is, up to its variables, when no span that stays has
  an escape;
* `escaped_expanded`: a substitution that is escaped is evaluated once the text has been expanded.
-/

namespace SqlTemplate

/-! ## 1. Spans of a reading -/

namespace Delimiters

variable {d : Delimiters}

/-- A span is read from a stretch of text in one of four ways. -/
inductive Reads (d : Delimiters) : Span → Prop
  | text (cs : List Char) : d.Reads ⟨.text cs, cs⟩
  | escapedOpen : d.Reads ⟨.escapedOpen, escapeChar :: d.opening⟩
  | token {raw content rest : List Char} : d.Closes raw content rest →
      d.Reads ⟨.token content, d.opening ++ raw⟩
  | unterminated (cs : List Char) : d.Reads ⟨.unterminated cs, cs⟩

theorem Splits.reads {cs : List Char} {spans : List Span} (h : d.Splits cs spans) :
    ∀ span ∈ spans, d.Reads span := by
  induction h with
  | plain => exact List.forall_mem_singleton.mpr (.text _)
  | escaped _ _ ih => exact List.forall_mem_cons.mpr ⟨.text _, List.forall_mem_cons.mpr ⟨.escapedOpen, ih⟩⟩
  | token _ _ hc _ ih => exact List.forall_mem_cons.mpr ⟨.text _, List.forall_mem_cons.mpr ⟨.token hc, ih⟩⟩
  | unterminated =>
    exact List.forall_mem_cons.mpr ⟨.text _, List.forall_mem_singleton.mpr (.unterminated _)⟩

/-- A content is shorter than what it is read from, by its escapes. -/
theorem Closes.length_le {raw content rest : List Char} (h : d.Closes raw content rest) :
    content.length + d.closing.length ≤ raw.length := by
  induction h with
  | close => exact Nat.le_of_eq List.length_append.symm
  | escaped _ _ ih =>
    simp only [List.length_append]
    omega

/-- An escape stands in a span: in front of its open delimiter, or in the text of a token, which is
    then not its content in delimiters. -/
def HasEscape (d : Delimiters) (span : Span) : Prop :=
  span.piece = .escapedOpen ∨ ∃ content, span.content? = some content ∧ span.source ≠ d.wrap content

end Delimiters

/-! ## 2. What comes out of a span -/

/-- Replacing puts a reply in place of each token that has one, and its content in delimiters in
    place of any other. -/
theorem Delimiters.replace_getD (d : Delimiters) (f : List Char → Option (List Char))
    (cs : List Char) : d.replace f cs =
      (d.pieces cs).flatMap (d.fill fun content => (f content).getD (d.wrap content)) := by
  rw [← replace_eq]
  unfold replace scan
  induction d.pieces cs with
  | nil => rfl
  | cons p ps ih =>
    have hp : d.renderPiece (m := Id) f p =
        d.renderPiece (m := Id) (fun content => some ((f content).getD (d.wrap content))) p := by
      cases p with
      | token content =>
        simp only [renderPiece]
        cases f content with
        | none => rfl
        | some text => rfl
      | text => rfl
      | escapedOpen => rfl
      | unterminated => rfl
      | overlap => rfl
    rw [renderPieces, renderPieces, hp, ih]

namespace Settings

open Delimiters (substitution)

/-- What comes out of a span. -/
def expandSpan (s : Settings) (span : Span) : List Char :=
  substitution.fill (fun content => (s.variableText? content).getD (substitution.wrap content))
    span.piece

/-- The text of a span that is a variable. -/
def resolve? (s : Settings) (span : Span) : Option (List Char) :=
  span.content?.bind s.variableText?

/-- What comes out of a span of which nothing but a variable is changed. -/
def leaveSpan (s : Settings) (span : Span) : List Char := (s.resolve? span).getD span.source

variable {s : Settings} {span : Span}

theorem resolve?_token (content source : List Char) :
    s.resolve? ⟨.token content, source⟩ = s.variableText? content := rfl

theorem expandSpan_token (content source : List Char) : s.expandSpan ⟨.token content, source⟩ =
    (s.variableText? content).getD (substitution.wrap content) := rfl

theorem leaveSpan_token (content source : List Char) :
    s.leaveSpan ⟨.token content, source⟩ = (s.variableText? content).getD source := rfl

/-- A span comes out as it is, unless it has an escape and is no variable. -/
theorem expandSpan_eq_iff (h : substitution.Reads span) : s.expandSpan span = s.leaveSpan span ↔
    (substitution.HasEscape span → (s.resolve? span).isSome) := by
  have plain (p : Piece) (cs : List Char) (hp : p ≠ .escapedOpen) (hc : p.content? = none) :
      ¬ substitution.HasEscape ⟨p, cs⟩ := by
    rintro (he | ⟨content, he, -⟩)
    · exact hp he
    · cases hc.symm.trans he
  cases h with
  | text cs => exact ⟨fun _ he => absurd he (plain _ _ (nomatch ·) rfl), fun _ => rfl⟩
  | unterminated cs => exact ⟨fun _ he => absurd he (plain _ _ (nomatch ·) rfl), fun _ => rfl⟩
  | escapedOpen =>
    constructor
    · intro he
      exact absurd (congrArg List.length he) (Nat.ne_of_lt (Nat.lt_succ_self _))
    · intro he
      cases he (.inl rfl)
  | @token raw content rest hc =>
    rw [expandSpan_token, leaveSpan_token, resolve?_token]
    cases s.variableText? content with
    | some text => exact ⟨fun _ _ => rfl, fun _ => rfl⟩
    | none =>
      rw [Option.getD_none, Option.getD_none]
      constructor
      · rintro hw (he | ⟨content', he, hne⟩)
        · cases he
        · cases he
          exact absurd hw.symm hne
      · intro he
        by_contra hne
        cases he (.inr ⟨content, rfl, fun e => hne e.symm⟩)

/-- Nothing comes out longer than it is. -/
theorem length_expandSpan_le (h : substitution.Reads span) :
    (s.expandSpan span).length ≤ (s.leaveSpan span).length := by
  cases h with
  | text cs => exact Nat.le_refl _
  | unterminated cs => exact Nat.le_refl _
  | escapedOpen => exact Nat.le_succ _
  | @token raw content rest hc =>
    rw [expandSpan_token, leaveSpan_token]
    cases s.variableText? content with
    | some text => exact Nat.le_refl _
    | none =>
      have := hc.length_le
      simp only [Option.getD_none, Delimiters.wrap, List.length_append]
      omega

/-! ## 3. What comes out of a text -/

section Parts

variable {α : Type} {f g : α → List Char} {xs : List α}

theorem length_flatMap_le (h : ∀ x ∈ xs, (f x).length ≤ (g x).length) :
    (xs.flatMap f).length ≤ (xs.flatMap g).length := by
  induction xs with
  | nil => exact Nat.le_refl _
  | cons x xs ih =>
    obtain ⟨hx, hxs⟩ := List.forall_mem_cons.mp h
    rw [List.flatMap_cons, List.flatMap_cons, List.length_append, List.length_append]
    exact Nat.add_le_add hx (ih hxs)

/-- Texts made of parts are equal when the parts are, if each part of the one is at most as long as
    that of the other. -/
theorem flatMap_eq_iff (h : ∀ x ∈ xs, (f x).length ≤ (g x).length) :
    xs.flatMap f = xs.flatMap g ↔ ∀ x ∈ xs, f x = g x := by
  induction xs with
  | nil => exact ⟨fun _ x hx => absurd hx List.not_mem_nil, fun _ => rfl⟩
  | cons x xs ih =>
    obtain ⟨hx, hxs⟩ := List.forall_mem_cons.mp h
    rw [List.flatMap_cons, List.flatMap_cons, List.forall_mem_cons, ← ih hxs]
    constructor
    · intro e
      have hlen := congrArg List.length e
      rw [List.length_append, List.length_append] at hlen
      have := length_flatMap_le hxs
      exact List.append_inj e (by omega)
    · rintro ⟨e, es⟩
      rw [e, es]

end Parts

/-- What comes out of a text comes out of its spans. -/
theorem expand_eq {text : String} {spans : List Span}
    (h : spans.map Span.piece = substitution.pieces text.toList) :
    (s.expand text).toList = spans.flatMap s.expandSpan := by
  rw [expand, String.toList_ofList, Delimiters.replace_getD, ← h, List.flatMap_map]
  rfl

/-- The settings without variables and without defaults. -/
def bare (s : Settings) : Settings := { s with vars := [], defaultsEnabled := false }

theorem bare_resolve? (s : Settings) (span : Span) : s.bare.resolve? span = none := by
  unfold resolve?
  cases span.content? with
  | none => rfl
  | some content => rfl

/-- **Replacing variables leaves a text as it is, up to the variables, when no span that stays has an
    escape.** An escaped open delimiter comes out bare, and a token that is no variable comes out as
    its content in delimiters. Without variables and defaults the text is the same when it has no
    escapes. -/
theorem expand_leaves (s : Settings) (text : String) :
    ∃ spans, substitution.IsReading text.toList spans ∧
      (s.expand text).toList = spans.flatMap s.expandSpan ∧
      ((s.expand text).toList = spans.flatMap s.leaveSpan ↔
        ∀ span ∈ spans, substitution.HasEscape span → (s.resolve? span).isSome) ∧
      (s.bare.expand text = text ↔ ∀ span ∈ spans, ¬ substitution.HasEscape span) := by
  obtain ⟨spans, hreading, hpieces⟩ :=
    Delimiters.isReading_pieces (d := substitution) rfl rfl text.toList
  have hreads := hreading.splits.reads
  have hleft (s : Settings) : (s.expand text).toList = spans.flatMap s.leaveSpan ↔
      ∀ span ∈ spans, substitution.HasEscape span → (s.resolve? span).isSome := by
    rw [expand_eq hpieces, flatMap_eq_iff fun span hspan => length_expandSpan_le (hreads span hspan)]
    exact forall₂_congr fun span hspan => expandSpan_eq_iff (hreads span hspan)
  refine ⟨spans, hreading, expand_eq hpieces, hleft s, ?_⟩
  have hsource : s.bare.leaveSpan = Span.source := by
    funext span
    rw [leaveSpan, bare_resolve?, Option.getD_none]
  have hbare := hleft s.bare
  rw [hsource, hreading.whole, String.toList_inj] at hbare
  rw [hbare]
  simp only [bare_resolve?, Option.isSome_none, Bool.false_eq_true, imp_false]

end Settings

/-- **An escape does not survive the replacement of variables**: without any variable an escaped
    substitution is evaluated once the text has been expanded, although the text as it is written
    renders it literally, and a content with an escaped brace ends at it. -/
theorem escaped_expanded :
    ({} : Settings).expand "\\$\x7bx\x7d" = "$\x7bx\x7d" ∧
      (Backend.render { engine := .constant (.int 1) } (.ofText "\\$\x7bx\x7d") .null none).map
          Query.sql = .ok "$\x7bx\x7d" ∧
      (Backend.render { engine := .constant (.int 1) }
          (.ofText (({} : Settings).expand "\\$\x7bx\x7d")) .null none).map Query.sql = .ok "1" ∧
      ({} : Settings).expand "$\x7ba\\\x7db\x7d" = "$\x7ba\x7db\x7d" := by
  refine ⟨?_, ?_, ?_, ?_⟩ <;> decide +kernel

end SqlTemplate
