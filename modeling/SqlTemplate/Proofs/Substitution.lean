import Mathlib.Data.List.Forall2
import SqlTemplate.Backend
import SqlTemplate.Proofs.Finalize
import SqlTemplate.Proofs.Renaming

/-!
# Placeholders of a literal

A literal is scanned for substitutions first, and what comes out is scanned for bind placeholders.
In between, the texts of values stand in it as they are.

* `Surroundings`: the text in front of each substitution of a literal and behind the last one;
* `Literal.scan_splice`: scanning a literal splices the texts of its values into its surroundings;
* `Inert`: a text that can stand behind a front without a trace;
* `contents_splice`: inert texts leave the placeholders of the surroundings as they are;
* `Literal.contents_render`: so the placeholders of a render are those of the literal's own text, for
  all engines, parameters and values with inert texts.
-/

namespace SqlTemplate

/-! ## 1. The text around substitutions -/

/-- What stands in front of each token, and behind the last one. -/
structure Surroundings where
  fronts : List (List Char) := []
  rest : List Char := []

namespace Surroundings

/-- More text at the start. -/
def prepend (cs : List Char) (s : Surroundings) : Surroundings :=
  match s.fronts with
  | [] => { s with rest := cs ++ s.rest }
  | front :: fronts => { s with fronts := (cs ++ front) :: fronts }

/-- The text around the tokens of a list of pieces. -/
def ofPieces (d : Delimiters) : List Piece → Surroundings
  | [] => {}
  | .token _ :: ps => { ofPieces d ps with fronts := [] :: (ofPieces d ps).fronts }
  | p :: ps => (ofPieces d ps).prepend (d.fill id p)

/-- The text with other texts in place of the tokens. -/
def splice (s : Surroundings) (texts : List (List Char)) : List Char :=
  (s.fronts.zipWith (· ++ ·) texts).flatten ++ s.rest

/-- The contents of the placeholders in the text itself. -/
def contents (s : Surroundings) : List (List Char) :=
  s.fronts.flatMap Delimiters.bind.contents ++ Delimiters.bind.contents s.rest

theorem ofPieces_plain (d : Delimiters) {p : Piece} (h : p.content? = none) (ps : List Piece) :
    ofPieces d (p :: ps) = (ofPieces d ps).prepend (d.fill id p) := by
  cases p with
  | text cs => rfl
  | escapedOpen => rfl
  | token content => cases h
  | unterminated cs => rfl
  | overlap => rfl

theorem splice_prepend (cs : List Char) {s : Surroundings} {texts : List (List Char)}
    (h : texts.length = s.fronts.length) :
    (s.prepend cs).splice texts = cs ++ s.splice texts := by
  obtain ⟨fronts, rest⟩ := s
  cases fronts with
  | nil => rfl
  | cons front fronts =>
    cases texts with
    | nil => cases h
    | cons text texts =>
      show (cs ++ front ++ text ++ (fronts.zipWith (· ++ ·) texts).flatten) ++ rest =
        cs ++ ((front ++ text ++ (fronts.zipWith (· ++ ·) texts).flatten) ++ rest)
      simp only [List.append_assoc]

theorem length_prepend (cs : List Char) (s : Surroundings) :
    (s.prepend cs).fronts.length = s.fronts.length := by
  obtain ⟨fronts, rest⟩ := s
  cases fronts with
  | nil => rfl
  | cons front fronts => rfl

end Surroundings

/-- The text around the substitutions of a literal. -/
def Literal.surroundings (l : Literal) : Surroundings :=
  .ofPieces .substitution (Delimiters.substitution.pieces l.text.toList)

/-! ## 2. Values -/

namespace Literal

/-- The bindings that the substitutions of a literal see. -/
def seen (b : Bindings) : Bindings := (exposeParameter (.ofBindings b)).bindings

/-- Whether these are the values of contents, in order. -/
def AreValues (engine : Engine) (b : Bindings) (contents : List (List Char)) (vs : List Value) :
    Prop :=
  List.Forall₂ (fun content v => engine.evaluate (String.ofList content) b = .ok v) contents vs

/-- The texts of values. -/
def texts (vs : List Value) : List (List Char) := vs.map fun v => (substituted v).toList

/-- Exposing the parameter a second time does nothing. -/
theorem exposeParameter_exposeParameter (s : Scope) :
    exposeParameter (exposeParameter s) = exposeParameter s := by
  have hs := exposed?_exposeParameter s
  cases h : s.bindings.exposed? with
  | none => exact exposeParameter_none (hs.trans h)
  | some v => rw [exposeParameter_some (hs.trans h), exposeParameter_some h, bind_bind]

/-- Pieces other than tokens are copied. -/
theorem renderPiece_plain (l : Literal) (engine : Engine) {p : Piece} (h : p.content? = none) :
    Delimiters.substitution.renderPiece (l.substitute engine) p =
      pure (Delimiters.substitution.fill id p) := by
  cases p with
  | text cs => rfl
  | escapedOpen => rfl
  | token content => cases h
  | unterminated cs => rfl
  | overlap => rfl

/-- Rendering pieces splices the texts of the values in. All of them see the same bindings. -/
theorem renderPieces_splice {l : Literal} {engine : Engine} (ps : List Piece) {s s' : Scope}
    {text : List Char}
    (h : Delimiters.substitution.renderPieces (l.substitute engine) ps s = .ok text s') :
    ∃ vs, AreValues engine (exposeParameter s).bindings (ps.filterMap Piece.content?) vs ∧
      vs.length = (Surroundings.ofPieces .substitution ps).fronts.length ∧
      text = (Surroundings.ofPieces .substitution ps).splice (texts vs) := by
  induction ps generalizing s s' text with
  | nil =>
    obtain ⟨rfl, -⟩ := RenderM.pure_ok.mp h
    exact ⟨[], .nil, rfl, rfl⟩
  | cons p ps ih =>
    obtain ⟨first, s₁, h₁, h₂⟩ := RenderM.bind_ok.mp h
    obtain ⟨others, s₂, h₃, h₄⟩ := RenderM.bind_ok.mp h₂
    obtain ⟨rfl, -⟩ := RenderM.pure_ok.mp h₄
    obtain ⟨vs, hvs, hlen, rfl⟩ := ih h₃
    cases hc : p.content? with
    | none =>
      rw [renderPiece_plain l engine hc] at h₁
      obtain ⟨rfl, rfl⟩ := RenderM.pure_ok.mp h₁
      rw [List.filterMap_cons_none hc, Surroundings.ofPieces_plain _ hc]
      refine ⟨vs, hvs, hlen.trans (Surroundings.length_prepend _ _).symm, ?_⟩
      exact (Surroundings.splice_prepend _ (List.length_map _ |>.trans hlen)).symm
    | some content =>
      obtain rfl := p.eq_token_of_content? hc
      obtain ⟨replacement, m, h₅, h₆⟩ := RenderM.bind_ok.mp h₁
      obtain ⟨v, hv, rfl, rfl⟩ := substitute_ok h₅
      obtain ⟨rfl, rfl⟩ := RenderM.pure_ok.mp h₆
      rw [exposeParameter_exposeParameter] at hvs
      refine ⟨v :: vs, .cons hv hvs, congrArg (· + 1) hlen, ?_⟩
      exact (List.append_assoc _ _ _).symm

/-- **Scanning a literal splices the texts of its values into its surroundings.** -/
theorem scan_splice {l : Literal} {engine : Engine} {s s' : Scope} {text : List Char}
    (h : Delimiters.substitution.scan (l.substitute engine) l.text.toList s = .ok text s') :
    ∃ vs, AreValues engine (exposeParameter s).bindings
        (Delimiters.substitution.contents l.text.toList) vs ∧
      vs.length = l.surroundings.fronts.length ∧ text = l.surroundings.splice (texts vs) :=
  renderPieces_splice _ h

end Literal

/-! ## 3. Inert texts -/

/-- Whether a text holds no opening of a placeholder, does not end in the beginning of one or in a
    backslash, and does not make an opening of the end of what stands in front of it. -/
structure Inert (front text : List Char) : Prop where
  opening : Text.occursIn Delimiters.bind.opening text = false
  ending : text.getLast? ≠ some '#' ∧ text.getLast? ≠ some escapeChar
  start : front.getLast? = some '#' → text ≠ [] ∧ text.head? ≠ some '{'

theorem Inert.contents {front text : List Char} (h : Inert front text) :
    Delimiters.bind.contents text = [] := by
  obtain ⟨cs, ht⟩ := pieces_of_not_occursIn h.opening
  rw [Delimiters.contents_eq, ht]
  rfl

/-- Nothing arises between a front, an inert text behind it and what follows. -/
theorem Inert.seamless {front text : List Char} (h : Inert front text)
    (he : endsEscaped front = false) (next : List Char) :
    Seamless front (text ++ next) ∧ Seamless text next := by
  refine ⟨⟨fun hf => ?_, fun hf => ?_⟩, fun ht => absurd ht h.ending.1,
    fun ht => absurd ht h.ending.2⟩
  · obtain ⟨hne, hhead⟩ := h.start hf
    rw [List.head?_append_of_ne_nil _ hne]
    exact hhead
  · unfold endsEscaped at he
    rw [hf] at he
    cases he

/-- **Inert texts leave the placeholders of their surroundings as they are**, if none of them stands
    inside of one. -/
theorem contents_splice {s : Surroundings} (hc : ∀ front ∈ s.fronts, IsClosed front)
    (he : ∀ front ∈ s.fronts, endsEscaped front = false) {texts : List (List Char)}
    (h : List.Forall₂ Inert s.fronts texts) :
    Delimiters.bind.contents (s.splice texts) = s.contents := by
  obtain ⟨fronts, rest⟩ := s
  replace h : List.Forall₂ Inert fronts texts := h
  induction h with
  | nil => rfl
  | @cons front text fronts texts hi _ ih =>
    have htail := ih (fun f hf => hc f (List.mem_cons_of_mem _ hf))
      (fun f hf => he f (List.mem_cons_of_mem _ hf))
    have hsplice : Surroundings.splice ⟨front :: fronts, rest⟩ (text :: texts) =
        front ++ (text ++ Surroundings.splice ⟨fronts, rest⟩ texts) := by
      unfold Surroundings.splice
      simp only [List.zipWith_cons_cons, List.flatten_cons, List.append_assoc]
    obtain ⟨hfront, htext⟩ := hi.seamless (he front List.mem_cons_self)
      (Surroundings.splice ⟨fronts, rest⟩ texts)
    rw [hsplice, contents_append (hc front List.mem_cons_self) hfront,
      contents_append (isClosed_of_not_occursIn hi.opening) htext, hi.contents, htail,
      List.nil_append]
    unfold Surroundings.contents
    rw [List.flatMap_cons, List.append_assoc]

/-! ## 4. Literals -/

theorem endsEscaped_append {cs ds : List Char} (hc : ds = [] → endsEscaped cs = false)
    (hd : endsEscaped ds = false) : endsEscaped (cs ++ ds) = false := by
  rcases List.eq_nil_or_concat ds with rfl | ⟨init, d, rfl⟩
  · rw [List.append_nil]
    exact hc rfl
  · rw [List.concat_eq_append] at hd ⊢
    rw [endsEscaped_concat] at hd
    rw [← List.append_assoc, endsEscaped_concat, hd]

namespace Surroundings

theorem prepend_prepend (cs ds : List Char) (s : Surroundings) :
    (s.prepend ds).prepend cs = s.prepend (cs ++ ds) := by
  obtain ⟨fronts, rest⟩ := s
  cases fronts with
  | nil => exact congrArg (Surroundings.mk []) (List.append_assoc cs ds rest).symm
  | cons f fronts =>
    exact congrArg (fun f => Surroundings.mk (f :: fronts) rest) (List.append_assoc cs ds f).symm

theorem endsEscaped_prepend {cs : List Char} (hc : endsEscaped cs = false) {s : Surroundings}
    (hs : ∀ front ∈ s.fronts, endsEscaped front = false) :
    ∀ front ∈ (s.prepend cs).fronts, endsEscaped front = false := by
  obtain ⟨fronts, rest⟩ := s
  intro front hmem
  cases fronts with
  | nil => cases hmem
  | cons f fronts =>
    rcases List.mem_cons.mp hmem with rfl | hmem
    · exact endsEscaped_append (fun _ => hc) (hs f List.mem_cons_self)
    · exact hs front (List.mem_cons_of_mem f hmem)

end Surroundings

/-- A substitution does not stand behind a backslash: it would be escaped. -/
theorem endsEscaped_fronts {pending cs : List Char} {escaped : Bool}
    (hp : escaped = endsEscaped pending) :
    ∀ front ∈ (Surroundings.ofPieces .substitution
      (Delimiters.substitution.piecesFrom pending escaped cs)).fronts,
      endsEscaped front = false := by
  fun_induction Delimiters.substitution.piecesFrom pending escaped cs with
  | case1 pending cs rest _ ih =>
    have hopen : endsEscaped (Delimiters.substitution.fill id .escapedOpen) = false := rfl
    rw [Surroundings.ofPieces_plain _ (beforeEscape_content? pending),
      Surroundings.ofPieces_plain _ rfl, Surroundings.prepend_prepend]
    exact Surroundings.endsEscaped_prepend (endsEscaped_append (fun h => by cases h) hopen) (ih rfl)
  | case2 => exact fun _ h => absurd h List.not_mem_nil
  | case3 pending escaped cs rest _ hf content rest' _ ih =>
    rw [Surroundings.ofPieces_plain _ rfl]
    refine Surroundings.endsEscaped_prepend ?_ fun front hmem => ?_
    · exact hp.symm.trans (Bool.eq_false_iff.mpr hf)
    · rcases List.mem_cons.mp hmem with rfl | hmem
      · rfl
      · exact ih rfl front hmem
  | case4 => exact fun _ h => absurd h List.not_mem_nil
  | case5 pending escaped c cs _ ih => exact ih (endsEscaped_concat pending c).symm

namespace Literal

/-- Whether the values of the substitutions of a literal have inert texts, under given bindings. -/
def HasInertValues (l : Literal) (engine : Engine) (b : Bindings) : Prop :=
  ∀ vs, AreValues engine (seen b) (Delimiters.substitution.contents l.text.toList) vs →
    List.Forall₂ Inert l.surroundings.fronts (texts vs)

/-- **The placeholders of a literal that is rendered on its own are those of its own text**, if no
    substitution stands inside of one and the texts of the values are inert. -/
theorem contents_render {l : Literal} (hc : ∀ front ∈ l.surroundings.fronts, IsClosed front)
    {b : Backend} {parameter : Value} {accessor : Option Accessor} {s : Scope}
    (hi : l.HasInertValues b.engine (b.bindingsFor parameter accessor))
    (h : b.renderScope (.literal l) parameter accessor = .ok s) :
    Delimiters.bind.contents s.text.toList = l.surroundings.contents := by
  unfold Backend.renderScope at h
  cases ha : (Template.literal l).apply b.engine
      (.ofBindings (b.bindingsFor parameter accessor)) with
  | error e s' =>
    rw [ha] at h
    cases h
  | ok r s' =>
    rw [ha] at h
    cases h
    obtain ⟨text, s₁, h₁, h₂⟩ := RenderM.bind_ok.mp ha
    obtain ⟨_, s₂, h₃, h₄⟩ := RenderM.bind_ok.mp h₂
    obtain ⟨-, rfl⟩ := RenderM.pure_ok.mp h₄
    obtain rfl := RenderM.modify_ok.mp h₃
    obtain ⟨vs, hvs, -, rfl⟩ := scan_splice h₁
    have hx := scan_exposed h₁
    have hf : (s₁.append (String.ofList (l.surroundings.splice (texts vs)))).fragments =
        [String.ofList (l.surroundings.splice (texts vs))] := by
      show s₁.fragments ++ (Layer.passThrough s₁.layers _).2 = _
      rw [hx.fragments, hx.layers]
      rfl
    rw [toList_text, hf, contents_trim]
    show Delimiters.bind.contents (String.ofList _).toList = _
    rw [String.toList_ofList]
    exact contents_splice hc (endsEscaped_fronts rfl) (hi vs hvs)

/-- **Substitution leaves the placeholders of a literal alone.** Two renders of it find the same
    placeholders, those of its own text, whatever their engines, parameters and values are, if no
    substitution stands inside of a placeholder and the texts of the values are inert. -/
theorem contents_agree {l : Literal} (hc : ∀ front ∈ l.surroundings.fronts, IsClosed front)
    {b b' : Backend} {parameter parameter' : Value} {accessor accessor' : Option Accessor}
    {s s' : Scope} (hi : l.HasInertValues b.engine (b.bindingsFor parameter accessor))
    (hi' : l.HasInertValues b'.engine (b'.bindingsFor parameter' accessor'))
    (h : b.renderScope (.literal l) parameter accessor = .ok s)
    (h' : b'.renderScope (.literal l) parameter' accessor' = .ok s') :
    Delimiters.bind.contents s.text.toList = Delimiters.bind.contents s'.text.toList ∧
      Delimiters.bind.contents s.text.toList = l.surroundings.contents :=
  ⟨(contents_render hc hi h).trans (contents_render hc hi' h').symm, contents_render hc hi h⟩

/-- A literal with a substitution in front of a placeholder. -/
def guarded : Literal := { text := "name = ${name} AND id = #{id}" }

theorem guarded_fronts : guarded.surroundings.fronts = ["name = ".toList] := by decide +kernel

theorem guarded_closed : ∀ front ∈ guarded.surroundings.fronts, IsClosed front := by
  rw [guarded_fronts]
  intro front hmem
  rw [List.mem_singleton.mp hmem]
  exact isClosed_of_not_occursIn (by decide +kernel)

theorem guarded_inert {v : Value} (hv : Inert "name = ".toList (substituted v).toList)
    (b : Bindings) : guarded.HasInertValues (.constant v) b := by
  intro vs hvs
  have hc : Delimiters.substitution.contents guarded.text.toList = ["name".toList] := by
    decide +kernel
  rw [hc] at hvs
  rw [guarded_fronts]
  cases hvs with
  | cons h hvs =>
    cases hvs
    cases h
    exact .cons hv .nil

/-- The literal for two names, one of them with quotes and a brace. -/
theorem guarded_agree :
    ∃ s s', Backend.renderScope { engine := .constant (.str "bob") } (.literal guarded) .null none =
        .ok s ∧
      Backend.renderScope { engine := .constant (.str "'\x7d--") } (.literal guarded) .null none =
        .ok s' ∧
      Delimiters.bind.contents s.text.toList = Delimiters.bind.contents s'.text.toList ∧
      Delimiters.bind.contents s.text.toList = guarded.surroundings.contents := by
  have rendered (b : Backend) (h : (b.renderScope (.literal guarded) .null none).isOk = true) :
      ∃ s, b.renderScope (.literal guarded) .null none = .ok s := by
    cases hs : b.renderScope (.literal guarded) .null none with
    | ok s => exact ⟨s, rfl⟩
    | error e =>
      rw [hs] at h
      cases h
  obtain ⟨s, hs⟩ := rendered { engine := .constant (.str "bob") } (by decide +kernel)
  obtain ⟨s', hs'⟩ := rendered { engine := .constant (.str "'\x7d--") } (by decide +kernel)
  refine ⟨s, s', hs, hs', ?_⟩
  refine contents_agree guarded_closed (guarded_inert ?_ _) (guarded_inert ?_ _) hs hs'
  · exact ⟨by decide +kernel, by decide +kernel, fun h => absurd h (by decide +kernel)⟩
  · exact ⟨by decide +kernel, by decide +kernel, fun h => absurd h (by decide +kernel)⟩

/-- **Values can make and unmake placeholders** of a literal whose substitution stands outside of
    them: a value that is a placeholder is bound, and a value that ends in a backslash takes the
    placeholder behind it away. -/
theorem guarded_overtaken :
    (∀ front ∈ guarded.surroundings.fronts, IsClosed front) ∧
      (Backend.renderScope { engine := .constant (.str "bob") } (.literal guarded) .null none).map
          (fun s => Delimiters.bind.contents s.text.toList) = .ok ["id".toList] ∧
      (Backend.renderScope { engine := .constant (.str "#{x}") } (.literal guarded) .null none).map
          (fun s => Delimiters.bind.contents s.text.toList) = .ok ["x".toList, "id".toList] ∧
      (Backend.renderScope { engine := .constant (.str "a") }
          (.ofText "${name}#{id}") .null none).map
          (fun s => Delimiters.bind.contents s.text.toList) = .ok ["id".toList] ∧
      (Backend.renderScope { engine := .constant (.str "\\") }
          (.ofText "${name}#{id}") .null none).map
          (fun s => Delimiters.bind.contents s.text.toList) = .ok [] := by
  refine ⟨guarded_closed, ?_, ?_, ?_, ?_⟩
  · decide +kernel
  · decide +kernel
  · decide +kernel
  · decide +kernel

end Literal

end SqlTemplate
