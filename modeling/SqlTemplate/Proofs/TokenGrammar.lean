import SqlTemplate.Proofs.TokenLoop
import SqlTemplate.Proofs.Renaming
import SqlTemplate.Proofs.Finalize

/-!
# The grammar of tokens

What a text with tokens looks like, said without a scanner. A text is cut from left to right into
spans, each with the piece it is read as; scanning replaces the pieces by the replies of a handler.
Delimiters that do not end in a backslash have one reading of each text.

* `Delimiters.Closes`, `Delimiters.Splits`: the grammar of a token's content and of a whole text;
* `Delimiters.isReading_pieces`: each text has one reading, and `pieces` finds it;
* `Delimiters.assemble`: a text put together from its pieces and the replies to its contents;
* `Answers`, `noted`: what a handler with a state replies, one content after the other, and which
  contents it is asked for;
* `Delimiters.scan_refines`: scanning is reading and then assembling, for all handlers.
-/

namespace SqlTemplate

open Text (splitOnce)

/-! ## 1. Readings -/

/-- A piece of a text, with the stretch of the text that it is read from. -/
structure Span where
  piece : Piece
  source : List Char
  deriving DecidableEq, Repr

/-- The content of a span that is a complete token. -/
def Span.content? (s : Span) : Option (List Char) := s.piece.content?

namespace Delimiters

/-- A token goes on with `raw` and then has the given content, when `rest` follows: `raw` ends with
    the first close delimiter that no backslash of the content stands in front of. Each escaped one
    gives the content a bare close delimiter. -/
inductive Closes (d : Delimiters) : List Char → List Char → List Char → Prop
  | close {before rest : List Char} : IsFirst d.closing before rest → endsEscaped before = false →
      d.Closes (before ++ d.closing) before rest
  | escaped {before raw content rest : List Char} :
      IsFirst d.closing (before ++ [escapeChar]) (raw ++ rest) → d.Closes raw content rest →
      d.Closes (before ++ [escapeChar] ++ d.closing ++ raw) (before ++ d.closing ++ content) rest

/-- A text is cut into spans at its open delimiters, from left to right. -/
inductive Splits (d : Delimiters) : List Char → List Span → Prop
  | plain {cs : List Char} : ¬ d.opening <:+: cs → d.Splits cs [⟨.text cs, cs⟩]
  | escaped {before rest : List Char} {spans : List Span} :
      IsFirst d.opening (before ++ [escapeChar]) rest → d.Splits rest spans →
      d.Splits (before ++ [escapeChar] ++ d.opening ++ rest)
        (⟨.text before, before⟩ :: ⟨.escapedOpen, escapeChar :: d.opening⟩ :: spans)
  | token {before raw content rest : List Char} {spans : List Span} :
      IsFirst d.opening before (raw ++ rest) → endsEscaped before = false →
      d.Closes raw content rest → d.Splits rest spans →
      d.Splits (before ++ d.opening ++ (raw ++ rest))
        (⟨.text before, before⟩ :: ⟨.token content, d.opening ++ raw⟩ :: spans)
  | unterminated {before rest : List Char} :
      IsFirst d.opening before rest → endsEscaped before = false →
      (∀ raw content rest', rest = raw ++ rest' → ¬ d.Closes raw content rest') →
      d.Splits (before ++ d.opening ++ rest)
        [⟨.text before, before⟩, ⟨.unterminated (d.opening ++ rest), d.opening ++ rest⟩]

/-- The one way to cut a text. -/
structure IsReading (d : Delimiters) (cs : List Char) (spans : List Span) : Prop where
  splits : d.Splits cs spans
  only : ∀ other, d.Splits cs other → other = spans
  whole : spans.flatMap Span.source = cs

variable {d : Delimiters}

theorem endsEscaped_escape (cs : List Char) : endsEscaped (cs ++ [escapeChar]) = true := by
  rw [endsEscaped_concat, beq_self_eq_true]

/-! ## 2. There is one reading -/

/-- A token closes in one place. -/
theorem Closes.unique {raw content rest raw' content' rest' : List Char}
    (h : d.Closes raw content rest) (h' : d.Closes raw' content' rest')
    (e : raw ++ rest = raw' ++ rest') : raw = raw' ∧ content = content' ∧ rest = rest' := by
  induction h generalizing raw' content' with
  | close hf he =>
    cases h' with
    | close hf' he' =>
      obtain ⟨rfl, rfl⟩ := hf.unique hf' e
      exact ⟨rfl, rfl, rfl⟩
    | escaped hf' _ =>
      rw [List.append_assoc _ _ rest'] at e
      obtain ⟨rfl, -⟩ := hf.unique hf' e
      rw [endsEscaped_escape] at he
      cases he
  | escaped hf _ ih =>
    rw [List.append_assoc _ _ (_ : List Char)] at e
    cases h' with
    | close hf' he' =>
      obtain ⟨rfl, -⟩ := hf.unique hf' e
      rw [endsEscaped_escape] at he'
      cases he'
    | escaped hf' hc' =>
      rw [List.append_assoc _ _ rest'] at e
      obtain ⟨hb, e'⟩ := hf.unique hf' e
      obtain rfl := List.append_cancel_right hb
      obtain ⟨rfl, rfl, rfl⟩ := ih hc' e'
      exact ⟨rfl, rfl, rfl⟩

/-- A text is cut in one way. -/
theorem Splits.unique {cs cs' : List Char} {spans other : List Span} (h : d.Splits cs spans)
    (h' : d.Splits cs' other) (e : cs = cs') : other = spans := by
  induction h generalizing cs' other with
  | plain hn =>
    cases h' with
    | plain => rw [e]
    | escaped => exact absurd ⟨_, _, e.symm⟩ hn
    | token => exact absurd ⟨_, _, e.symm⟩ hn
    | unterminated => exact absurd ⟨_, _, e.symm⟩ hn
  | escaped hf _ ih =>
    cases h' with
    | plain hn => exact absurd ⟨_, _, e⟩ hn
    | escaped hf' h' =>
      obtain ⟨hb, hr⟩ := hf.unique hf' e
      rw [List.append_cancel_right hb, ih h' hr]
    | token hf' he' =>
      rw [← (hf.unique hf' e).1, endsEscaped_escape] at he'
      cases he'
    | unterminated hf' he' =>
      rw [← (hf.unique hf' e).1, endsEscaped_escape] at he'
      cases he'
  | token hf he hc _ ih =>
    cases h' with
    | plain hn => exact absurd ⟨_, _, e⟩ hn
    | escaped hf' =>
      rw [(hf.unique hf' e).1, endsEscaped_escape] at he
      cases he
    | token hf' _ hc' h' =>
      obtain ⟨rfl, hr⟩ := hf.unique hf' e
      obtain ⟨rfl, rfl, hr⟩ := hc.unique hc' hr
      rw [ih h' hr]
    | unterminated hf' _ hn' => exact absurd hc (hn' _ _ _ (hf.unique hf' e).2.symm)
  | unterminated hf he hn =>
    cases h' with
    | plain hn' => exact absurd ⟨_, _, e⟩ hn'
    | escaped hf' =>
      rw [(hf.unique hf' e).1, endsEscaped_escape] at he
      cases he
    | token hf' _ hc' => exact absurd hc' (hn _ _ _ (hf.unique hf' e).2)
    | unterminated hf' _ _ =>
      obtain ⟨rfl, rfl⟩ := hf.unique hf' e
      rfl

/-! ## 3. The pieces are the reading -/

/-- What the inner loop finds is how the token closes. -/
theorem closes_of_findContent {read cs content rest : List Char}
    (h : d.findContent read cs = some (content, rest)) :
    ∃ raw tail, cs = raw ++ rest ∧ content = read ++ tail ∧ d.Closes raw tail rest := by
  fun_induction d.findContent read cs with
  | case1 => cases h
  | case2 read cs before rest' hs he ih =>
    obtain ⟨rfl, hf⟩ := isFirst_of_splitOnce d.closing_ne hs
    obtain ⟨init, rfl⟩ := eq_concat_of_endsEscaped he
    obtain ⟨raw, tail, rfl, rfl, hc⟩ := ih h
    refine ⟨_, _, ?_, ?_, .escaped hf hc⟩
    · rw [List.append_assoc _ raw]
    · rw [List.dropLast_concat]
      simp only [List.append_assoc]
  | case3 read cs before rest' hs he =>
    cases h
    obtain ⟨rfl, hf⟩ := isFirst_of_splitOnce d.closing_ne hs
    exact ⟨_, _, rfl, rfl, .close hf (Bool.eq_false_iff.mpr he)⟩

/-- Where the inner loop finds nothing, the token is never closed. -/
theorem findContent_of_closes {raw content rest : List Char} (h : d.Closes raw content rest)
    (read : List Char) : (d.findContent read (raw ++ rest)).isSome := by
  induction h generalizing read with
  | close hf he =>
    rw [findContent]
    split
    · rename_i hs
      rw [(splitOnce_eq_some d.closing_ne).mpr ⟨rfl, hf⟩] at hs
      cases hs
    · rename_i hs
      rw [(splitOnce_eq_some d.closing_ne).mpr ⟨rfl, hf⟩] at hs
      cases hs
      rw [if_neg (Bool.eq_false_iff.mp he)]
      rfl
  | escaped hf _ ih =>
    rw [List.append_assoc, findContent]
    split
    · rename_i hs
      rw [(splitOnce_eq_some d.closing_ne).mpr ⟨rfl, hf⟩] at hs
      cases hs
    · rename_i hs
      rw [(splitOnce_eq_some d.closing_ne).mpr ⟨rfl, hf⟩] at hs
      cases hs
      rw [if_pos (endsEscaped_escape _)]
      exact ih _

/-- The spans of a text are the text. -/
theorem Splits.whole {cs : List Char} {spans : List Span} (h : d.Splits cs spans) :
    spans.flatMap Span.source = cs := by
  induction h with
  | plain => exact List.append_nil _
  | escaped _ _ ih =>
    simp only [List.flatMap_cons, ih, List.append_assoc, List.cons_append, List.nil_append]
  | token _ _ _ _ ih => simp only [List.flatMap_cons, ih, List.append_assoc]
  | unterminated => simp only [List.flatMap_cons, List.flatMap_nil, List.append_nil, List.append_assoc]

/-- Going from open delimiter to open delimiter cuts a text into its pieces. -/
theorem exists_splits (ho : endsEscaped d.opening = false) (hc : endsEscaped d.closing = false)
    (cs : List Char) : ∃ spans, d.Splits cs spans ∧ spans.map Span.piece = d.pieces cs := by
  induction hn : cs.length using Nat.strongRecOn generalizing cs with
  | _ n ih =>
    subst hn
    unfold pieces
    cases hs : splitOnce d.opening cs with
    | none =>
      rw [piecesFrom_last hs]
      exact ⟨_, .plain ((splitOnce_eq_none d.opening_ne).mp hs), rfl⟩
    | some found =>
      obtain ⟨before, rest⟩ := found
      have hlt := length_splitOnce d.opening_ne hs
      have hopen := isPrefixOf?_append d.opening rest
      rw [piecesFrom_next hs, isEscapedBehind_false, List.nil_append]
      obtain ⟨rfl, hf⟩ := isFirst_of_splitOnce d.opening_ne hs
      cases he : endsEscaped before with
      | true =>
        obtain ⟨init, rfl⟩ := eq_concat_of_endsEscaped he
        obtain ⟨spans, hsplits, hpieces⟩ := ih _ hlt rest rfl
        refine ⟨_, .escaped hf hsplits, ?_⟩
        rw [piecesFrom_escaped hopen, ho, beforeEscape, if_neg (by simp), List.dropLast_concat,
          List.map_cons, List.map_cons, hpieces]
        rfl
      | false =>
        cases hfound : d.findContent [] rest with
        | none =>
          rw [piecesFrom_unterminated hopen (by rw [← findContent_eq, hfound])]
          refine ⟨_, .unterminated hf he ?_, rfl⟩
          rintro raw content rest' rfl hcl
          have := findContent_of_closes hcl []
          rw [hfound] at this
          cases this
        | some found =>
          obtain ⟨content, rest'⟩ := found
          rw [piecesFrom_closed hopen (by rw [← findContent_eq, hfound]), hc]
          obtain ⟨raw, tail, rfl, rfl, hcl⟩ := closes_of_findContent hfound
          have hlt' := length_findContent hfound
          obtain ⟨spans, hsplits, hpieces⟩ := ih _ (Nat.lt_trans hlt' hlt) rest' rfl
          refine ⟨_, .token hf he hcl hsplits, ?_⟩
          rw [List.map_cons, List.map_cons, hpieces]
          rfl

/-- **The pieces of a text are those of its one reading.** -/
theorem isReading_pieces (ho : endsEscaped d.opening = false) (hc : endsEscaped d.closing = false)
    (cs : List Char) : ∃ spans, d.IsReading cs spans ∧ spans.map Span.piece = d.pieces cs := by
  obtain ⟨spans, hs, hp⟩ := exists_splits ho hc cs
  exact ⟨spans, ⟨hs, fun _ h => hs.unique h rfl, hs.whole⟩, hp⟩

/-! ## 4. Assembling -/

/-- A text put together from its pieces and the replies to its contents. A token that the handler
    declines is written again, with its content. -/
def assemble (d : Delimiters) : List Piece → List (Option (List Char)) → List Char
  | [], _ => []
  | .text cs :: ps, replies => cs ++ d.assemble ps replies
  | .escapedOpen :: ps, replies => d.opening ++ d.assemble ps replies
  | .unterminated cs :: ps, replies => cs ++ d.assemble ps replies
  | .overlap :: ps, replies => d.assemble ps replies
  | .token content :: ps, replies =>
    replies.head?.join.getD (d.wrap content) ++ d.assemble ps replies.tail

theorem assemble_plain {p : Piece} (h : p.content? = none) (ps : List Piece)
    (replies : List (Option (List Char))) :
    d.assemble (p :: ps) replies = d.fill id p ++ d.assemble ps replies := by
  cases p with
  | text => rfl
  | escapedOpen => rfl
  | token content => cases h
  | unterminated => rfl
  | overlap => rfl

/-- The pieces are put out in order, and the handler is asked for the contents in order. -/
theorem renderPieces_eq_assemble {m : Type → Type} [Monad m] [LawfulMonad m]
    (handler : List Char → m (Option (List Char))) (ps : List Piece) :
    d.renderPieces handler ps = d.assemble ps <$> (ps.filterMap Piece.content?).mapM handler := by
  induction ps with
  | nil => rw [renderPieces, List.filterMap_nil, List.mapM_nil, map_pure]; rfl
  | cons p ps ih =>
    cases hp : p.content? with
    | none =>
      rw [renderPieces_plain handler hp, ih, List.filterMap_cons_none hp, Functor.map_map]
      exact congrArg (· <$> _) (funext fun replies => (assemble_plain hp ps replies).symm)
    | some content =>
      obtain rfl := p.eq_token_of_content? hp
      rw [renderPieces_token, ih, List.filterMap_cons_some hp, List.mapM_cons]
      simp only [assemble, List.head?_cons, Option.join_some, List.tail_cons, map_eq_pure_bind,
        bind_assoc, pure_bind]

end Delimiters

/-! ## 5. Handlers that keep a state and fail -/

section Handlers

variable {ε σ : Type} {handler : List Char → EStateM ε σ (Option (List Char))}

/-- The replies of a handler to one content after the other, each in the state that the reply before
    has left. -/
inductive Answers (handler : List Char → EStateM ε σ (Option (List Char))) :
    σ → List (List Char) → List (Option (List Char)) → σ → Prop
  | done {s : σ} : Answers handler s [] [] s
  | next {s s₁ s₂ : σ} {content : List Char} {reply : Option (List Char)}
      {contents : List (List Char)} {replies : List (Option (List Char))} :
      handler content s = .ok reply s₁ → Answers handler s₁ contents replies s₂ →
      Answers handler s (content :: contents) (reply :: replies) s₂

/-- A handler fails at a content when it has answered the contents in front of it. -/
def FailsAt (handler : List Char → EStateM ε σ (Option (List Char))) (s : σ)
    (before : List (List Char)) (content : List Char) (e : ε) (s' : σ) : Prop :=
  ∃ replies s₁, Answers handler s before replies s₁ ∧ handler content s₁ = .error e s'

/-- A handler that also notes the contents that it is asked for. -/
def noted (handler : List Char → EStateM ε σ (Option (List Char))) (content : List Char) :
    EStateM ε (σ × List (List Char)) (Option (List Char)) := fun (s, calls) =>
  match handler content s with
  | .ok reply s' => .ok reply (s', calls ++ [content])
  | .error e s' => .error e (s', calls ++ [content])

variable {s s₁ s' : σ} {e e' : ε} {content : List Char} {contents calls calls' : List (List Char)}
  {reply : Option (List Char)} {replies : List (Option (List Char))}

theorem run_map_ok {α β : Type} {f : α → β} {x : EStateM ε σ α} {b : β} :
    (f <$> x).run s = .ok b s' ↔ ∃ a, x.run s = .ok a s' ∧ b = f a := by
  rw [map_eq_pure_bind, EStateM.run_bind]
  cases x.run s with
  | ok a s₁ =>
    constructor
    · intro h
      cases h
      exact ⟨a, rfl, rfl⟩
    · rintro ⟨a, h, rfl⟩
      cases h
      rfl
  | error e s₁ =>
    constructor
    · intro h
      cases h
    · rintro ⟨a, h, -⟩
      cases h

theorem run_map_error {α β : Type} {f : α → β} {x : EStateM ε σ α} :
    (f <$> x).run s = .error e s' ↔ x.run s = .error e s' := by
  rw [map_eq_pure_bind, EStateM.run_bind]
  cases x.run s with
  | ok a s₁ => exact ⟨fun h => (nomatch h), fun h => (nomatch h)⟩
  | error e' s₁ => exact ⟨fun h => by cases h; rfl, fun h => by cases h; rfl⟩

/-- A reply goes in front of the replies to the contents that are left. -/
theorem run_mapM_of_ok (h : handler content s = .ok reply s₁) :
    ((content :: contents).mapM (noted handler)).run (s, calls) =
      match (contents.mapM (noted handler)).run (s₁, calls ++ [content]) with
      | .ok replies s' => .ok (reply :: replies) s'
      | .error e s' => .error e s' := by
  have hn : (noted handler content).run (s, calls) = .ok reply (s₁, calls ++ [content]) := by
    simp only [EStateM.run, noted, h]
  rw [List.mapM_cons, EStateM.run_bind, hn]
  simp only [EStateM.run_bind, EStateM.run_pure]
  cases (contents.mapM (noted handler)).run (s₁, calls ++ [content]) with
  | ok => rfl
  | error => rfl

/-- After an error no content is asked for. -/
theorem run_mapM_of_error (h : handler content s = .error e s₁) :
    ((content :: contents).mapM (noted handler)).run (s, calls) =
      .error e (s₁, calls ++ [content]) := by
  have hn : (noted handler content).run (s, calls) = .error e (s₁, calls ++ [content]) := by
    simp only [EStateM.run, noted, h]
  rw [List.mapM_cons, EStateM.run_bind, hn]

/-- The contents are asked for in order, each once. -/
theorem run_mapM_ok : (contents.mapM (noted handler)).run (s, calls) = .ok replies (s', calls') ↔
    Answers handler s contents replies s' ∧ calls' = calls ++ contents := by
  induction contents generalizing s calls replies with
  | nil =>
    rw [List.mapM_nil, EStateM.run_pure, List.append_nil]
    constructor
    · intro h
      cases h
      exact ⟨.done, rfl⟩
    · rintro ⟨⟨⟩, rfl⟩
      rfl
  | cons content contents ih =>
    cases h : handler content s with
    | ok reply s₁ =>
      rw [run_mapM_of_ok h]
      constructor
      · intro hr
        split at hr
        · rename_i hr'
          cases hr
          obtain ⟨ha, rfl⟩ := ih.mp hr'
          exact ⟨.next h ha, List.append_assoc calls [content] contents⟩
        · cases hr
      · rintro ⟨ha, rfl⟩
        cases ha with
        | next h' ha =>
          cases h.symm.trans h'
          rw [ih.mpr ⟨ha, (List.append_assoc calls [content] contents).symm⟩]
    | error e s₁ =>
      rw [run_mapM_of_error h]
      constructor
      · intro hr
        cases hr
      · rintro ⟨ha, -⟩
        cases ha with
        | next h' => cases h.symm.trans h'

/-- The first error is the result, and no later content is asked for. -/
theorem run_mapM_error : (contents.mapM (noted handler)).run (s, calls) = .error e (s', calls') ↔
    ∃ before content after, contents = before ++ content :: after ∧
      FailsAt handler s before content e s' ∧ calls' = calls ++ (before ++ [content]) := by
  induction contents generalizing s calls with
  | nil =>
    rw [List.mapM_nil, EStateM.run_pure]
    constructor
    · intro h
      cases h
    · rintro ⟨before, content, after, h, -⟩
      exact absurd h (List.append_ne_nil_of_right_ne_nil _ (List.cons_ne_nil _ _)).symm
  | cons content contents ih =>
    cases h : handler content s with
    | ok reply s₁ =>
      rw [run_mapM_of_ok h]
      constructor
      · intro hr
        split at hr
        · cases hr
        · rename_i hr'
          cases hr
          obtain ⟨before, c, after, rfl, ⟨replies, s₂, ha, hf⟩, rfl⟩ := ih.mp hr'
          exact ⟨content :: before, c, after, rfl, ⟨_, _, .next h ha, hf⟩,
            List.append_assoc calls [content] (before ++ [c])⟩
      · rintro ⟨before, c, after, hcs, ⟨replies, s₂, ha, hf⟩, rfl⟩
        cases ha with
        | done =>
          cases hcs
          cases h.symm.trans hf
        | next h' ha =>
          cases hcs
          cases h.symm.trans h'
          rw [ih.mpr ⟨_, _, _, rfl, ⟨_, _, ha, hf⟩,
            (List.append_assoc calls [content] _).symm⟩]
    | error e' s₁ =>
      rw [run_mapM_of_error h]
      constructor
      · intro hr
        cases hr
        exact ⟨[], content, contents, rfl, ⟨[], s, .done, h⟩, rfl⟩
      · rintro ⟨before, c, after, hcs, ⟨replies, s₂, ha, hf⟩, rfl⟩
        cases ha with
        | done =>
          cases hcs
          cases h.symm.trans hf
          rfl
        | next h' =>
          cases hcs
          cases h.symm.trans h'

end Handlers

/-! ## 6. Scanning refines the grammar -/

/-- A handler that raises a flag when it is asked. -/
def raising (_ : List Char) : StateM Bool (Option (List Char)) := do
  set true
  return none

theorem run_mapM_raising (contents : List (List Char)) (flag : Bool) :
    ((contents.mapM raising).run flag).2 = (flag || !contents.isEmpty) := by
  induction contents generalizing flag with
  | nil => exact (Bool.or_false flag).symm
  | cons content contents ih =>
    rw [List.mapM_cons]
    refine (ih true).trans ?_
    rw [Bool.true_or]
    exact (Bool.or_true flag).symm

namespace Delimiters

/-- What scanning makes of a text with the given spans. -/
structure Scans (d : Delimiters) (cs : List Char) (spans : List Span) : Prop where
  /-- The loop over the text is reading and then assembling, and so is `scan`. -/
  assembles : ∀ {m : Type → Type} [Monad m] [LawfulMonad m]
    (handler : List Char → m (Option (List Char))),
    d.scanLoop handler cs =
        d.assemble (spans.map Span.piece) <$> (spans.filterMap Span.content?).mapM handler ∧
      d.scan handler cs = d.scanLoop handler cs
  /-- When the handler answers, it has been asked for the contents in order, each once. -/
  answered : ∀ {ε σ : Type} (handler : List Char → EStateM ε σ (Option (List Char))) (s s' : σ)
    (calls : List (List Char)) (out : List Char),
    (d.scanLoop (noted handler) cs).run (s, []) = .ok out (s', calls) ↔
      ∃ replies, Answers handler s (spans.filterMap Span.content?) replies s' ∧
        out = d.assemble (spans.map Span.piece) replies ∧ calls = spans.filterMap Span.content?
  /-- When it fails, its first error is the result and it is not asked again. -/
  failed : ∀ {ε σ : Type} (handler : List Char → EStateM ε σ (Option (List Char))) (s s' : σ)
    (calls : List (List Char)) (e : ε),
    (d.scanLoop (noted handler) cs).run (s, []) = .error e (s', calls) ↔
      ∃ before content after, spans.filterMap Span.content? = before ++ content :: after ∧
        FailsAt handler s before content e s' ∧ calls = before ++ [content]
  /-- A token is found when a span is a token. -/
  token : d.hasToken cs = true ↔ ∃ span ∈ spans, ∃ content, span.piece = .token content
  /-- A flag that is raised at each token says so, too. -/
  flag : ((d.scanLoop raising cs).run false).2 = d.hasToken cs

variable {d : Delimiters} {cs : List Char} {spans : List Span}

theorem contents_eq_filterMap (h : spans.map Span.piece = d.pieces cs) :
    d.contents cs = spans.filterMap Span.content? := by
  rw [contents_eq, ← h, List.filterMap_map]
  rfl

theorem scanLoop_eq_assemble {m : Type → Type} [Monad m] [LawfulMonad m]
    (handler : List Char → m (Option (List Char))) (h : spans.map Span.piece = d.pieces cs) :
    d.scanLoop handler cs =
      d.assemble (spans.map Span.piece) <$> (spans.filterMap Span.content?).mapM handler := by
  rw [scanLoop_eq, scan, renderPieces_eq_assemble, ← contents_eq, contents_eq_filterMap h, h]

theorem hasToken_iff (h : spans.map Span.piece = d.pieces cs) :
    d.hasToken cs = true ↔ ∃ span ∈ spans, ∃ content, span.piece = .token content := by
  rw [hasToken, contents_eq_filterMap h, Bool.not_eq_true', List.isEmpty_eq_false_iff_exists_mem]
  constructor
  · rintro ⟨content, hmem⟩
    obtain ⟨span, hspan, hcontent⟩ := List.mem_filterMap.mp hmem
    exact ⟨span, hspan, content, span.piece.eq_token_of_content? hcontent⟩
  · rintro ⟨span, hspan, content, hpiece⟩
    refine ⟨content, List.mem_filterMap.mpr ⟨span, hspan, ?_⟩⟩
    rw [Span.content?, hpiece]
    rfl

/-- What the loop does follows from the pieces, for each way to ask the contents. -/
theorem scans_of_pieces (h : spans.map Span.piece = d.pieces cs) : d.Scans cs spans where
  assembles handler := ⟨scanLoop_eq_assemble handler h, (scanLoop_eq handler cs).symm⟩
  answered handler s s' calls out := by
    rw [scanLoop_eq_assemble (noted handler) h, run_map_ok]
    constructor
    · rintro ⟨replies, hr, rfl⟩
      obtain ⟨ha, rfl⟩ := run_mapM_ok.mp hr
      exact ⟨replies, ha, rfl, rfl⟩
    · rintro ⟨replies, ha, rfl, rfl⟩
      exact ⟨replies, run_mapM_ok.mpr ⟨ha, rfl⟩, rfl⟩
  failed handler s s' calls e := by
    rw [scanLoop_eq_assemble (noted handler) h, run_map_error, run_mapM_error]
    rfl
  token := hasToken_iff h
  flag := by
    rw [scanLoop_eq_assemble raising h, hasToken, contents_eq_filterMap h]
    exact run_mapM_raising _ false

/-- **Scanning refines the grammar of tokens.** With delimiters that do not end in a backslash each
    text has one reading, and scanning the text puts its pieces together again with the replies to
    its contents. -/
theorem scan_refines (d : Delimiters) (ho : endsEscaped d.opening = false)
    (hc : endsEscaped d.closing = false) (cs : List Char) :
    ∃ spans, d.IsReading cs spans ∧ spans.map Span.piece = d.pieces cs ∧ d.Scans cs spans := by
  obtain ⟨spans, hreading, hpieces⟩ := isReading_pieces ho hc cs
  exact ⟨spans, hreading, hpieces, scans_of_pieces hpieces⟩

/-- A text with an escaped open delimiter, a token with an escaped close delimiter and a token that
    is never closed. -/
theorem scan_refines_escapes :
    endsEscaped substitution.opening = false ∧ endsEscaped substitution.closing = false ∧
      ∃ spans, substitution.IsReading "a\\$\x7bx\x7d$\x7bb\\\x7dc\x7d$\x7bd".toList spans ∧
        spans.map Span.piece = [.text ['a'], .escapedOpen, .text "x\x7d".toList,
          .token "b\x7dc".toList, .text [], .unterminated "$\x7bd".toList] ∧
        substitution.Scans "a\\$\x7bx\x7d$\x7bb\\\x7dc\x7d$\x7bd".toList spans := by
  have ho : endsEscaped substitution.opening = false := by decide
  have hc : endsEscaped substitution.closing = false := by decide
  obtain ⟨spans, hreading, hpieces, hscans⟩ := scan_refines substitution ho hc
    "a\\$\x7bx\x7d$\x7bb\\\x7dc\x7d$\x7bd".toList
  refine ⟨ho, hc, spans, hreading, hpieces.trans ?_, hscans⟩
  decide +kernel

end Delimiters

end SqlTemplate
