import SqlTemplate.Proofs.Expansion

/-!
# Declined tokens

What comes out of a token for which the handler has no reply. It is put together again from its
content, in which escaped close delimiters have lost their backslash. So it comes out as it stands in
the text when there is none, and shorter when there is one.

* `replied`: the spans of a text, each with the reply to its content;
* `Delimiters.EscapesClose`: a token has an escaped close delimiter;
* `Closes.wrap_eq_iff`: a content in delimiters is the token unless the token has one;
* `Delimiters.declines`: which tokens come out as they stand, for all delimiters that do not end in a
  backslash, all texts and all handlers;
* `declined_escaped`: one that does not.
-/

namespace SqlTemplate

/-! ## 1. Spans and replies -/

/-- Spans, each with the reply to its content. A span that is no token has none. -/
def replied : List Span → List (Option (List Char)) → List (Span × Option (List Char))
  | [], _ => []
  | span :: spans, replies =>
    match span.content? with
    | none => (span, none) :: replied spans replies
    | some _ => (span, replies.head?.join) :: replied spans replies.tail

theorem replied_plain {span : Span} (h : span.content? = none) (spans : List Span)
    (replies : List (Option (List Char))) :
    replied (span :: spans) replies = (span, none) :: replied spans replies := by
  rw [replied, h]

theorem replied_token {span : Span} {content : List Char} (h : span.content? = some content)
    (spans : List Span) (replies : List (Option (List Char))) :
    replied (span :: spans) replies =
      (span, replies.head?.join) :: replied spans replies.tail := by
  rw [replied, h]

/-- The spans are those of the text. -/
theorem fst_mem_of_mem_replied {spans : List Span} {replies : List (Option (List Char))}
    {x : Span × Option (List Char)} (h : x ∈ replied spans replies) : x.1 ∈ spans := by
  induction spans generalizing replies with
  | nil => cases h
  | cons span spans ih =>
    cases hc : span.content? with
    | none =>
      rw [replied_plain hc] at h
      rcases List.mem_cons.mp h with rfl | h
      · exact List.mem_cons_self
      · exact List.mem_cons_of_mem _ (ih h)
    | some content =>
      rw [replied_token hc] at h
      rcases List.mem_cons.mp h with rfl | h
      · exact List.mem_cons_self
      · exact List.mem_cons_of_mem _ (ih h)

namespace Delimiters

variable {d : Delimiters}

/-- What comes out of a span: the reply, or else the text of its piece, with a content in
    delimiters. -/
def putOut (d : Delimiters) (x : Span × Option (List Char)) : List Char :=
  x.2.getD (d.fill d.wrap x.1.piece)

/-- What comes out of a span when a token without a reply is copied from the text. -/
def putVerbatim (d : Delimiters) (x : Span × Option (List Char)) : List Char :=
  match x.1.content? with
  | some _ => x.2.getD x.1.source
  | none => d.putOut x

theorem putOut_token {span : Span} {content : List Char} (h : span.content? = some content) :
    d.putOut (span, none) = d.wrap content := by
  rw [putOut, span.piece.eq_token_of_content? h]
  rfl

/-- A text is assembled span by span. -/
theorem assemble_eq_flatMap (spans : List Span) (replies : List (Option (List Char))) :
    d.assemble (spans.map Span.piece) replies = (replied spans replies).flatMap d.putOut := by
  induction spans generalizing replies with
  | nil => rfl
  | cons span spans ih =>
    obtain ⟨p, source⟩ := span
    cases p with
    | token content => exact congrArg (replies.head?.join.getD (d.wrap content) ++ ·) (ih replies.tail)
    | text cs => exact congrArg (cs ++ ·) (ih replies)
    | escapedOpen => exact congrArg (d.opening ++ ·) (ih replies)
    | unterminated cs => exact congrArg (cs ++ ·) (ih replies)
    | overlap => exact ih replies

/-! ## 2. Escaped close delimiters -/

/-- A span is a token, and behind its open delimiter stands an escaped close delimiter. -/
def EscapesClose (d : Delimiters) (span : Span) : Prop :=
  ∃ content raw, span.content? = some content ∧ span.source = d.opening ++ raw ∧
    (escapeChar :: d.closing) <:+: raw

/-- **A content in delimiters is the token that it is read from, unless an escaped close delimiter
    stands in it.** -/
theorem Closes.wrap_eq_iff {raw content rest : List Char} (h : d.Closes raw content rest) :
    d.wrap content = d.opening ++ raw ↔ ¬ (escapeChar :: d.closing) <:+: raw := by
  have hwrap : d.wrap content = d.opening ++ raw ↔ content ++ d.closing = raw := by
    unfold wrap
    rw [List.append_assoc, List.append_right_inj]
  rw [hwrap]
  cases h with
  | close hf he =>
    refine iff_of_true rfl ?_
    rintro ⟨xs, ys, e⟩
    -- The escaped delimiter would stand at the end, and its backslash at the end of the content.
    have e' : (xs ++ [escapeChar]) ++ d.closing ++ ys = content ++ d.closing := by
      rw [← e]
      simp only [List.append_assoc, List.cons_append, List.nil_append]
    have hle := hf (xs ++ [escapeChar]) (ys ++ rest) (by rw [← List.append_assoc, e'])
    have hlen := congrArg List.length e'
    simp only [List.length_append, List.length_singleton] at hle hlen
    obtain rfl : ys = [] := List.length_eq_zero_iff.mp (by omega)
    rw [List.append_nil] at e'
    rw [← List.append_cancel_right e', endsEscaped_escape] at he
    cases he
  | @escaped before raw content _ hf hc =>
    refine iff_of_false (fun e => ?_) (fun hn => hn ⟨before, raw, ?_⟩)
    · have hlen := congrArg List.length e
      have := hc.length_le
      simp only [List.length_append, List.length_singleton] at hlen
      omega
    · simp only [List.append_assoc, List.cons_append, List.nil_append]

theorem Reads.declined_iff {span : Span} {content : List Char} (h : d.Reads span)
    (hs : span.content? = some content) :
    d.wrap content = span.source ↔ ¬ d.EscapesClose span := by
  cases h with
  | text cs => cases hs
  | escapedOpen => cases hs
  | unterminated cs => cases hs
  | @token raw content' rest hc =>
    cases hs
    refine hc.wrap_eq_iff.trans (not_congr ⟨fun hi => ⟨content, raw, rfl, rfl, hi⟩, ?_⟩)
    rintro ⟨_, raw', -, hsource, hi⟩
    rw [List.append_cancel_left hsource]
    exact hi

/-- An escape is an escaped open delimiter or an escaped close delimiter. -/
theorem Reads.hasEscape_iff {span : Span} (h : d.Reads span) :
    d.HasEscape span ↔ span.piece = .escapedOpen ∨ d.EscapesClose span := by
  refine or_congr_right ⟨?_, ?_⟩
  · rintro ⟨content, hs, hne⟩
    by_contra hn
    exact hne ((h.declined_iff hs).mpr hn).symm
  · intro he
    have ⟨content, _, hs, _⟩ := he
    exact ⟨content, hs, fun e => (h.declined_iff hs).mp e.symm he⟩

/-- Nothing comes out of a span without a reply that is longer than the span. -/
theorem Reads.length_putOut_le {span : Span} (h : d.Reads span) :
    (d.putOut (span, none)).length ≤ span.source.length := by
  cases h with
  | text cs => exact Nat.le_refl _
  | unterminated cs => exact Nat.le_refl _
  | escapedOpen => exact Nat.le_succ _
  | @token raw content rest hc =>
    have := hc.length_le
    show (d.wrap content).length ≤ (d.opening ++ raw).length
    simp only [wrap, List.length_append]
    omega

theorem Reads.putOut_eq_source_iff {span : Span} (h : d.Reads span) :
    d.putOut (span, none) = span.source ↔ ¬ d.HasEscape span := by
  cases hs : span.content? with
  | some content =>
    have hpiece : span.piece ≠ .escapedOpen := by
      rw [span.piece.eq_token_of_content? hs]
      exact fun e => nomatch e
    rw [putOut_token hs, h.declined_iff hs, h.hasEscape_iff, or_iff_right hpiece]
  | none =>
    have hclose : ¬ d.EscapesClose span := fun ⟨_, _, hs', _⟩ => nomatch hs.symm.trans hs'
    rw [h.hasEscape_iff, or_iff_left hclose]
    cases h with
    | text cs => exact iff_of_true rfl fun e => nomatch e
    | unterminated cs => exact iff_of_true rfl fun e => nomatch e
    | escapedOpen =>
      exact iff_of_false (fun e => absurd (congrArg List.length e) (Nat.ne_of_lt (Nat.lt_succ_self _)))
        fun hn => hn rfl
    | token => cases hs

/-! ## 3. What comes out of a text -/

/-- What comes out of a span is what should, unless it is a declined token with an escaped close
    delimiter. -/
theorem Reads.putOut_eq_iff {span : Span} (h : d.Reads span) (reply : Option (List Char)) :
    d.putOut (span, reply) = d.putVerbatim (span, reply) ↔
      (reply = none → ¬ d.EscapesClose span) := by
  unfold putVerbatim
  cases hs : span.content? with
  | none =>
    refine iff_of_true rfl fun _ => ?_
    rintro ⟨content, raw, hs', -, -⟩
    cases hs.symm.trans hs'
  | some content =>
    cases reply with
    | some text => exact iff_of_true rfl fun e => nomatch e
    | none =>
      show d.putOut (span, none) = span.source ↔ _
      rw [putOut_token hs, h.declined_iff hs]
      exact ⟨fun hn _ => hn, fun hn => hn rfl⟩

theorem Reads.length_putOut_le_putVerbatim {span : Span} (h : d.Reads span)
    (reply : Option (List Char)) :
    (d.putOut (span, reply)).length ≤ (d.putVerbatim (span, reply)).length := by
  unfold putVerbatim
  cases span.content? with
  | none => exact Nat.le_refl _
  | some content =>
    cases reply with
    | some text => exact Nat.le_refl _
    | none => exact h.length_putOut_le

/-- What becomes of the tokens of a text that a handler declines. -/
structure Declines (d : Delimiters) (cs : List Char) (spans : List Span) : Prop where
  /-- Every handler is asked for the contents in order, and every span comes out with its reply. -/
  scans : ∀ {m : Type → Type} [Monad m] [LawfulMonad m]
    (handler : List Char → m (Option (List Char))), d.scan handler cs =
      (fun replies => (replied spans replies).flatMap d.putOut) <$>
        (spans.filterMap Span.content?).mapM handler
  /-- A declined token comes out as its content in delimiters. That is how it stands in the text if
      and only if it has no escaped close delimiter. -/
  token : ∀ span ∈ spans, ∀ content, span.content? = some content →
    d.putOut (span, none) = d.wrap content ∧
      (d.wrap content = span.source ↔ ¬ d.EscapesClose span)
  /-- So the declined tokens of a text come out as they stand if and only if none of them has one. -/
  verbatim : ∀ replies,
    (replied spans replies).flatMap d.putOut = (replied spans replies).flatMap d.putVerbatim ↔
      ∀ x ∈ replied spans replies, x.2 = none → ¬ d.EscapesClose x.1
  /-- A handler that never replies leaves the texts without escapes as they are, and no other. -/
  never : d.replace (fun _ => none) cs = cs ↔
    ∀ span ∈ spans, span.piece ≠ .escapedOpen ∧ ¬ d.EscapesClose span

/-- **A declined token comes out as its content in delimiters**, for all delimiters that do not end
    in a backslash, all texts and all handlers. -/
theorem declines (d : Delimiters) (ho : endsEscaped d.opening = false)
    (hc : endsEscaped d.closing = false) (cs : List Char) :
    ∃ spans, d.IsReading cs spans ∧ d.Declines cs spans := by
  obtain ⟨spans, hreading, hpieces⟩ := isReading_pieces ho hc cs
  have hreads := hreading.splits.reads
  refine ⟨spans, hreading, fun handler => ?_, fun span hspan content hs => ?_, fun replies => ?_, ?_⟩
  · rw [scan, renderPieces_eq_assemble, ← contents_eq, contents_eq_filterMap hpieces, ← hpieces]
    exact congrArg (· <$> _) (funext (assemble_eq_flatMap spans))
  · exact ⟨putOut_token hs, (hreads span hspan).declined_iff hs⟩
  · rw [Settings.flatMap_eq_iff fun x hx =>
      (hreads x.1 (fst_mem_of_mem_replied hx)).length_putOut_le_putVerbatim x.2]
    exact forall₂_congr fun x hx => (hreads x.1 (fst_mem_of_mem_replied hx)).putOut_eq_iff x.2
  · have hout : d.replace (fun _ => none) cs = spans.flatMap fun span => d.putOut (span, none) := by
      rw [replace_getD, ← hpieces, List.flatMap_map]
      rfl
    have hlen : ∀ span ∈ spans, (d.putOut (span, none)).length ≤ span.source.length :=
      fun span hspan => (hreads span hspan).length_putOut_le
    have hiff := Settings.flatMap_eq_iff hlen
    rw [hreading.whole] at hiff
    rw [hout, hiff]
    refine forall₂_congr fun span hspan => ?_
    rw [(hreads span hspan).putOut_eq_source_iff, (hreads span hspan).hasEscape_iff, not_or]

/-- Two tokens with escaped close delimiters, one of them declined, next to an empty token and one
    that is never closed. -/
theorem declines_escapes :
    endsEscaped substitution.opening = false ∧ endsEscaped substitution.closing = false ∧
      ∃ spans, substitution.IsReading "$\x7ba\\\x7db\\\x7d\x7d$\x7b\x7d$\x7bc\\\x7d".toList spans ∧
        substitution.Declines "$\x7ba\\\x7db\\\x7d\x7d$\x7b\x7d$\x7bc\\\x7d".toList spans := by
  have ho : endsEscaped substitution.opening = false := by decide
  have hc : endsEscaped substitution.closing = false := by decide
  exact ⟨ho, hc, declines substitution ho hc _⟩

/-- **A declined token need not come out as it stands in the text**: an escaped close delimiter in it
    loses its backslash, though no open delimiter is escaped. The text that comes out has another
    token. -/
theorem declined_escaped :
    substitution.replace (fun _ => none) "$\x7ba\\\x7db\x7d".toList = "$\x7ba\x7db\x7d".toList ∧
      substitution.contents "$\x7ba\\\x7db\x7d".toList = ["a\x7db".toList] ∧
      substitution.contents "$\x7ba\x7db\x7d".toList = ["a".toList] ∧
      ¬ ∀ d : Delimiters, endsEscaped d.opening = false → endsEscaped d.closing = false →
        ∀ cs, Piece.escapedOpen ∉ d.pieces cs → d.replace (fun _ => none) cs = cs := by
  have hout : substitution.replace (fun _ => none) "$\x7ba\\\x7db\x7d".toList =
      "$\x7ba\x7db\x7d".toList := by decide +kernel
  refine ⟨hout, by decide +kernel, by decide +kernel, fun h => ?_⟩
  have hsame := h substitution (by decide) (by decide) "$\x7ba\\\x7db\x7d".toList (by decide +kernel)
  rw [hout] at hsame
  exact absurd hsame (by decide)

end Delimiters

end SqlTemplate
