import SqlTemplate.Proofs.Run
import SqlTemplate.Proofs.Tokens

/-!
# Separators between the elements of a loop

Where a loop puts its separator, told from what its body hands out for each element on a scope
without layers.

* `Rendered`: the elements of a loop, rendered one after the other on bare scopes;
* `Loop.layout`: the fragments of all elements with the places of the separators, as a function of
  what each element has handed out;
* `Loop.layout_between`, `Loop.count_layout`: a separator stands between two fragments that are not
  blank, and there is one fewer than there are elements that render something;
* `Template.loop_separated`: a loop appends its opening text, its layout and its closing text,
  through whatever layers lie over its scope.
-/

namespace SqlTemplate

open Text (isBlankText)

/-! ## 1. Elements on bare scopes -/

/-- What one element has handed out: its number and the fragments of the body. -/
structure Part where
  suffix : Nat
  fragments : List String
  deriving DecidableEq, Repr

/-- Whether an element has rendered something that is not blank. -/
def Part.speaks (p : Part) : Bool := p.fragments.any fun f => !isBlankText f

/-- The elements of a loop, rendered one after the other: each one by the body on a scope without
    layers and without fragments, with the bindings and the counter that the ones before it have
    left. -/
inductive Rendered (engine : Engine) (l : Loop) (body : Template) :
    Scope → List Element → List Part → Scope → Prop where
  | nil {s : Scope} : Rendered engine l body s [] [] s
  | cons {s p s' : Scope} {e : Element} {es : List Element} {r : Bool} {parts : List Part}
      (hb : body.apply engine (l.enter e s).bare = .ok r p)
      (hr : Rendered engine l body p.bare es parts s') :
      Rendered engine l body s (e :: es) (⟨s.counter, p.fragments⟩ :: parts) s'

/-! ## 2. The layout of a loop -/

namespace Loop

/-- The separator of a loop; empty when it has none. -/
def separation (l : Loop) : String := l.separator.getD ""

/-- The fragments of one element with the loop variables renamed. `none` is a separator: it stands
    right before the first fragment that is not blank, if an element before this one has rendered
    something and the separator is not empty. -/
def layPart (l : Loop) (earlier : Bool) (p : Part) : List (Option String) :=
  let rename f := some (Layer.renameFragment l.item l.index p.suffix f)
  (p.fragments.takeWhile isBlankText).map rename ++
    (if earlier && p.speaks && !l.separation.isEmpty then [none] else []) ++
    (p.fragments.dropWhile isBlankText).map rename

/-- The fragments of all elements and the separators between them. -/
def layout (l : Loop) (parts : List Part) : List (Option String) :=
  (parts.mapIdx fun i p => l.layPart ((parts.take i).any Part.speaks) p).flatten

/-- The fragments that a loop with elements appends. -/
def laidOut (l : Loop) (parts : List Part) : List String :=
  l.opening.toList ++ (l.layout parts).map (·.getD l.separation) ++ l.closing.toList

/-- The layout of elements when `earlier` says whether one before them has rendered something. -/
def layoutFrom (l : Loop) : Bool → List Part → List (Option String)
  | _, [] => []
  | earlier, p :: parts => l.layPart earlier p ++ layoutFrom l (earlier || p.speaks) parts

theorem layoutFrom_eq (l : Loop) (done parts : List Part) :
    (parts.mapIdx fun i p => l.layPart ((done ++ parts.take i).any Part.speaks) p).flatten =
      l.layoutFrom (done.any Part.speaks) parts := by
  induction parts generalizing done with
  | nil => rfl
  | cons p parts ih =>
    have h := ih (done ++ [p])
    simp only [List.append_assoc, List.singleton_append] at h
    rw [List.mapIdx_cons, List.flatten_cons, layoutFrom]
    simp only [List.take_zero, List.append_nil, List.take_succ_cons]
    rw [h, List.any_append]
    simp only [List.any_cons, List.any_nil, Bool.or_false]

theorem layout_eq (l : Loop) (parts : List Part) : l.layout parts = l.layoutFrom false parts :=
  l.layoutFrom_eq [] parts

end Loop

/-! ## 3. What the layers of an element let through -/

theorem passAll_renaming (item index : Option String) (suffix : Nat) (fragments : List String) :
    (Layer.renaming item index suffix).passAll fragments =
      (.renaming item index suffix, fragments.map (Layer.renameFragment item index suffix)) := by
  induction fragments with
  | nil => rfl
  | cons f rest ih =>
    simp only [Layer.passAll, Layer.pass, ih, List.map_cons, List.singleton_append]

/-- A separator that has met its fragment lets everything through. -/
theorem passAll_applied (text : String) (fragments : List String) :
    (Layer.separator text true).passAll fragments = (.separator text true, fragments) := by
  induction fragments with
  | nil => rfl
  | cons f rest ih =>
    simp only [Layer.passAll, Layer.pass, Bool.true_or, ↓reduceIte, ih, List.singleton_append]

/-- A separator is put right before the first fragment that is not blank. -/
theorem passAll_separator (text : String) (fragments : List String) :
    (Layer.separator text false).passAll fragments =
      (.separator text (fragments.any fun f => !isBlankText f),
        fragments.takeWhile isBlankText ++
          (if (fragments.any fun f => !isBlankText f) && !text.isEmpty then [text] else []) ++
          fragments.dropWhile isBlankText) := by
  induction fragments with
  | nil => rfl
  | cons f rest ih =>
    cases hf : isBlankText f with
    | true =>
      simp only [Layer.passAll, Layer.pass, hf, Bool.or_true, ↓reduceIte, ih, List.any_cons,
        Bool.not_true, Bool.false_or, List.takeWhile_cons_of_pos, List.dropWhile_cons_of_pos,
        List.cons_append, List.nil_append]
    | false =>
      cases ht : text.isEmpty with
      | true =>
        simp only [Layer.passAll, Layer.pass, hf, ht, Bool.or_false, passAll_applied,
          List.any_cons, Bool.not_false, Bool.true_or, Bool.not_true, Bool.and_false,
          List.takeWhile_cons, List.dropWhile_cons, ↓reduceIte, Bool.false_eq_true,
          List.nil_append, List.singleton_append]
      | false =>
        simp only [Layer.passAll, Layer.pass, hf, ht, Bool.or_false, passAll_applied,
          List.any_cons, Bool.not_false, Bool.true_or, Bool.and_true,
          List.takeWhile_cons, List.dropWhile_cons, ↓reduceIte, Bool.false_eq_true,
          List.nil_append, List.cons_append]

theorem takeWhile_map_rename (item index : Option String) (suffix : Nat) (fs : List String) :
    (fs.map (Layer.renameFragment item index suffix)).takeWhile isBlankText =
      (fs.takeWhile isBlankText).map (Layer.renameFragment item index suffix) := by
  have h : isBlankText ∘ Layer.renameFragment item index suffix = isBlankText :=
    funext (Layer.isBlankText_renameFragment item index suffix)
  rw [List.takeWhile_map, h]

theorem dropWhile_map_rename (item index : Option String) (suffix : Nat) (fs : List String) :
    (fs.map (Layer.renameFragment item index suffix)).dropWhile isBlankText =
      (fs.dropWhile isBlankText).map (Layer.renameFragment item index suffix) := by
  have h : isBlankText ∘ Layer.renameFragment item index suffix = isBlankText :=
    funext (Layer.isBlankText_renameFragment item index suffix)
  rw [List.dropWhile_map, h]

theorem any_map_rename (item index : Option String) (suffix : Nat) (fs : List String) :
    ((fs.map (Layer.renameFragment item index suffix)).any fun f => !isBlankText f) =
      fs.any fun f => !isBlankText f := by
  rw [List.any_map]
  refine congrArg fs.any (funext fun f => ?_)
  exact congrArg not (Layer.isBlankText_renameFragment item index suffix f)

namespace Loop

/-- The layers of an element pass its fragments through the renaming and then the separator. -/
theorem passElement_layers (l : Loop) (first : Bool) (p : Part) :
    l.passElement first p.suffix p.fragments =
      ([.renaming l.item l.index p.suffix, .separator (l.separatorText first) p.speaks],
        (p.fragments.takeWhile isBlankText).map (Layer.renameFragment l.item l.index p.suffix) ++
          (if p.speaks && !(l.separatorText first).isEmpty then [l.separatorText first] else []) ++
          (p.fragments.dropWhile isBlankText).map
            (Layer.renameFragment l.item l.index p.suffix)) := by
  unfold passElement elementLayers
  simp only [Layer.passThrough, passAll_renaming, passAll_separator, any_map_rename,
    takeWhile_map_rename, dropWhile_map_rename]
  rfl

/-- **The layers of an element make its part of the layout** of the fragments of its body. -/
theorem passElement_eq (l : Loop) (first : Bool) (p : Part) :
    (l.passElement first p.suffix p.fragments).2 =
      (l.layPart (!first) p).map (·.getD l.separation) := by
  have renamed (fs : List String) :
      (fs.map fun f => some (Layer.renameFragment l.item l.index p.suffix f)).map
          (·.getD l.separation) =
        fs.map (Layer.renameFragment l.item l.index p.suffix) := by
    rw [List.map_map]
    rfl
  rw [passElement_layers]
  unfold layPart
  simp only [List.map_append, renamed]
  cases first with
  | true =>
    have hs : (l.separatorText true).isEmpty = true := rfl
    simp only [hs, Bool.not_true, Bool.and_false, Bool.false_and, Bool.false_eq_true, ↓reduceIte,
      List.map_nil]
  | false =>
    have hs : l.separatorText false = l.separation := rfl
    rw [hs, Bool.not_false, Bool.true_and]
    split
    · rfl
    · rfl

theorem stillFirst_eq (l : Loop) (first : Bool) (p : Part) :
    l.stillFirst first p.suffix p.fragments = (first && !p.speaks) := by
  unfold stillFirst
  rw [passElement_layers]
  simp only [List.any_cons, List.any_nil, Layer.isApplied, Bool.false_or, Bool.or_false]

end Loop

/-! ## 4. Where separators stand -/

/-- Whether a layout holds a fragment that is not blank. -/
def Voiced (layout : List (Option String)) : Prop := ∃ f, some f ∈ layout ∧ isBlankText f = false

/-- Whether every separator of a layout stands behind a fragment that is not blank and right before
    another one. `heard` says whether there is one in front of the layout. -/
def WellSeparated (heard : Prop) (layout : List (Option String)) : Prop :=
  ∀ before after, layout = before ++ none :: after →
    (heard ∨ Voiced before) ∧ ∃ f rest, after = some f :: rest ∧ isBlankText f = false

theorem Voiced.append_left {xs : List (Option String)} (h : Voiced xs) (ys : List (Option String)) :
    Voiced (xs ++ ys) := by
  obtain ⟨f, hf, hb⟩ := h
  exact ⟨f, List.mem_append_left ys hf, hb⟩

theorem Voiced.append_right {ys : List (Option String)} (h : Voiced ys)
    (xs : List (Option String)) : Voiced (xs ++ ys) := by
  obtain ⟨f, hf, hb⟩ := h
  exact ⟨f, List.mem_append_right xs hf, hb⟩

theorem WellSeparated.append {heard later : Prop} {xs ys : List (Option String)}
    (hx : WellSeparated heard xs) (hy : WellSeparated later ys)
    (hl : later → heard ∨ Voiced xs) : WellSeparated heard (xs ++ ys) := by
  intro before after h
  rcases List.append_eq_append_iff.mp h with ⟨m, rfl, hm⟩ | ⟨m, rfl, hm⟩
  · obtain ⟨hv, hf⟩ := hy m after hm
    refine ⟨?_, hf⟩
    rcases hv with hv | hv
    · exact (hl hv).imp id fun hv => hv.append_left m
    · exact .inr (hv.append_right xs)
  · cases m with
    | nil =>
      obtain ⟨hv, hf⟩ := hy [] after (by rw [List.nil_append]; exact hm.symm)
      rw [List.append_nil] at hl
      refine ⟨?_, hf⟩
      rcases hv with hv | ⟨f, hf, _⟩
      · exact hl hv
      · cases hf
    | cons a m =>
      obtain ⟨rfl, rfl⟩ := List.cons.inj hm
      obtain ⟨hv, f, rest, rfl, hf⟩ := hx before m rfl
      exact ⟨hv, f, rest ++ ys, rfl, hf⟩

theorem none_not_mem_map (fs : List String) (g : String → String) :
    none ∉ fs.map fun f => some (g f) := by
  intro h
  obtain ⟨f, -, hf⟩ := List.mem_map.mp h
  cases hf

theorem map_ne_append_none (fs : List String) (g : String → String)
    (before after : List (Option String)) :
    (fs.map fun f => some (g f)) ≠ before ++ none :: after := by
  intro h
  refine none_not_mem_map fs g ?_
  rw [h]
  exact List.mem_append_right before List.mem_cons_self

/-- A layout without separators has none in a wrong place. -/
theorem wellSeparated_map_some (heard : Prop) (fs : List String) (g : String → String) :
    WellSeparated heard (fs.map fun f => some (g f)) := by
  intro before after h
  exact absurd h (map_ne_append_none fs g before after)

/-- What is left of the fragments of an element that renders something begins with a fragment that
    is not blank. -/
theorem dropWhile_of_speaks {fs : List String} (h : (fs.any fun f => !isBlankText f) = true) :
    ∃ f rest, fs.dropWhile isBlankText = f :: rest ∧ isBlankText f = false := by
  induction fs with
  | nil => cases h
  | cons f fs ih =>
    cases hf : isBlankText f with
    | true =>
      rw [List.any_cons, hf] at h
      rw [List.dropWhile_cons, if_pos hf]
      exact ih h
    | false =>
      refine ⟨f, fs, ?_, hf⟩
      rw [List.dropWhile_cons, if_neg (ne_true_of_eq_false hf)]

namespace Loop

theorem layPart_voiced (l : Loop) (earlier : Bool) {p : Part} (h : p.speaks = true) :
    Voiced (l.layPart earlier p) := by
  obtain ⟨f, rest, hd, hf⟩ := dropWhile_of_speaks h
  refine ⟨Layer.renameFragment l.item l.index p.suffix f, ?_, ?_⟩
  · unfold layPart
    rw [hd]
    exact List.mem_append_right _ List.mem_cons_self
  · rw [Layer.isBlankText_renameFragment, hf]

theorem layPart_wellSeparated (l : Loop) (earlier : Bool) (p : Part) :
    WellSeparated (earlier = true) (l.layPart earlier p) := by
  by_cases hs : (earlier && p.speaks && !l.separation.isEmpty) = true
  · have he : earlier = true := by
      rw [Bool.and_eq_true, Bool.and_eq_true] at hs
      exact hs.1.1
    have hp : p.speaks = true := by
      rw [Bool.and_eq_true, Bool.and_eq_true] at hs
      exact hs.1.2
    obtain ⟨f, rest, hd, hf⟩ := dropWhile_of_speaks hp
    unfold layPart
    rw [if_pos hs, hd, List.append_assoc, List.singleton_append]
    refine (wellSeparated_map_some _ _ _).append ?_ .inl
    intro before after h
    cases before with
    | nil =>
      obtain ⟨-, rfl⟩ := List.cons.inj h
      exact ⟨.inl he, _, _, rfl, by rw [Layer.isBlankText_renameFragment, hf]⟩
    | cons b before =>
      -- behind the separator there are only fragments
      obtain ⟨-, h⟩ := List.cons.inj h
      exact absurd h (map_ne_append_none _ _ before after)
  · unfold layPart
    rw [if_neg hs]
    simp only [List.append_nil]
    exact (wellSeparated_map_some _ _ _).append (wellSeparated_map_some _ _ _) .inl

theorem layoutFrom_wellSeparated (l : Loop) (earlier : Bool) (parts : List Part) :
    WellSeparated (earlier = true) (l.layoutFrom earlier parts) := by
  induction parts generalizing earlier with
  | nil =>
    intro before after h
    cases before with
    | nil => cases h
    | cons b before => cases h
  | cons p parts ih =>
    refine (l.layPart_wellSeparated earlier p).append (ih _) fun h => ?_
    rcases Bool.or_eq_true_iff.mp h with h | h
    · exact .inl h
    · exact .inr (l.layPart_voiced earlier h)

/-- **A separator stands between two fragments that are not blank**, and right before the second
    one: never first, never last and never twice in a row. -/
theorem layout_between (l : Loop) (parts : List Part) {before after : List (Option String)}
    (h : l.layout parts = before ++ none :: after) :
    Voiced before ∧ ∃ f rest, after = some f :: rest ∧ isBlankText f = false := by
  rw [layout_eq] at h
  obtain ⟨hv, hf⟩ := l.layoutFrom_wellSeparated false parts before after h
  exact ⟨hv.resolve_left Bool.false_ne_true, hf⟩

/-! ## 5. How many separators there are -/

theorem count_none_map (fs : List String) (g : String → String) :
    (fs.map fun f => some (g f)).count none = 0 :=
  List.count_eq_zero.mpr (none_not_mem_map fs g)

theorem count_layPart (l : Loop) (earlier : Bool) (p : Part) :
    (l.layPart earlier p).count none =
      if earlier && p.speaks && !l.separation.isEmpty then 1 else 0 := by
  unfold layPart
  simp only [List.count_append, count_none_map, Nat.add_zero, Nat.zero_add]
  split
  · rfl
  · rfl

theorem count_layoutFrom (l : Loop) (hs : l.separation.isEmpty = false) (parts : List Part) :
    (l.layoutFrom true parts).count none = parts.countP Part.speaks ∧
      (l.layoutFrom false parts).count none = parts.countP Part.speaks - 1 := by
  induction parts with
  | nil => exact ⟨rfl, rfl⟩
  | cons p parts ih =>
    simp only [layoutFrom, List.count_append, count_layPart, List.countP_cons, hs,
      Bool.true_and, Bool.true_or, Bool.false_and, Bool.false_or, Bool.not_false, Bool.and_true]
    cases hp : p.speaks with
    | true =>
      simp only [↓reduceIte, Bool.false_eq_true]
      omega
    | false =>
      simp only [↓reduceIte, Bool.false_eq_true]
      omega

/-- **There is one separator fewer than there are elements that render something**, and none at
    all when the separator is empty. -/
theorem count_layout (l : Loop) (parts : List Part) :
    (l.layout parts).count none =
      if l.separation.isEmpty then 0 else parts.countP Part.speaks - 1 := by
  rw [layout_eq]
  cases hs : l.separation.isEmpty with
  | true =>
    have h (earlier : Bool) : (l.layoutFrom earlier parts).count none = 0 := by
      induction parts generalizing earlier with
      | nil => rfl
      | cons p parts ih =>
        simp only [layoutFrom, List.count_append, count_layPart, hs, Bool.not_true, Bool.and_false,
          Bool.false_eq_true, ↓reduceIte, ih, Nat.add_zero]
    exact h false
  | false => exact (l.count_layoutFrom hs parts).2

end Loop

/-! ## 6. Renders of loops -/

section Renders

variable {engine : Engine} {l : Loop} {body : Template}

/-- The elements of a loop hand out their layout. -/
theorem renderElements_rendered (es : List Element) : ∀ (first : Bool) (position : Nat)
    (s p : Scope), l.renderElements (body.apply engine) first position es s.bare = .ok () p →
      ∃ parts, Rendered engine l body s.bare es parts p.bare ∧
        p.fragments = (l.layoutFrom (!first) parts).map (·.getD l.separation) := by
  induction es with
  | nil =>
    intro first position s p h
    obtain ⟨-, rfl⟩ := RenderM.pure_ok.mp h
    exact ⟨[], .nil, rfl⟩
  | cons e es ih =>
    intro first position s p h
    obtain ⟨next, p₁, h₁, h₂⟩ := RenderM.bind_ok.mp h
    have ht := body.apply_transparent engine
    obtain ⟨r, q, hq, hbare, hl, hf, rfl⟩ := renderElement_ok ht h₁
    obtain ⟨p₂, h₃, hbare₂, hf₂, -⟩ :=
      (l.renderElements_transparent ht es _ _).bare_of_ok hl h₂
    rw [hbare] at h₃
    obtain ⟨parts, hr, hp⟩ := ih _ _ q p₂ h₃
    have hpart := l.passElement_eq first ⟨s.counter, q.fragments⟩
    have hnext := l.stillFirst_eq first ⟨s.counter, q.fragments⟩
    refine ⟨⟨s.counter, q.fragments⟩ :: parts, ?_, ?_⟩
    · rw [hbare₂]
      refine .cons (r := r) ?_ hr
      rw [← l.enter_bare, Scope.bare_bare]
      exact hq
    · rw [hf₂, hf, hpart, hp, hnext, Bool.not_and, Bool.not_not, ← List.map_append]
      rfl

/-- A loop is left in the same way below layers and above them. -/
theorem leave_receive (l : Loop) (before s p : Scope) :
    l.leave before (s.receive p) = s.receive (l.leave before p) := by
  unfold Loop.leave
  rw [Loop.restore_receive, Loop.restore_receive]

/-- A loop with elements on a bare scope appends its opening text, its layout and its closing
    text. -/
theorem loop_laidOut {s p : Scope} {r : Bool} {e : Element} {es : List Element}
    (he : engine.elements l.collection s.bindings = .ok (e :: es))
    (h : l.apply engine (body.apply engine) s.bare = .ok r p) :
    ∃ parts last, Rendered engine l body s.bare (e :: es) parts last ∧
      p = l.leave s { last with fragments := l.laidOut parts } := by
  rcases l.apply_ok h with ⟨h₀, -⟩ | ⟨e', es', m, h₁, hm, rfl⟩
  · rw [Scope.bare_bindings, he] at h₀
    cases h₀
  · rw [Scope.bare_bindings, he] at h₁
    cases h₁
    have hopen : Loop.appendText l.opening s.bare =
        { s.bare with fragments := l.opening.toList } := by
      rw [Loop.appendText_eq, Scope.appendAll_eq]
      rfl
    rw [hopen] at hm
    obtain ⟨q, hq, hqb, hqf, hql⟩ :=
      (l.renderElements_transparent (body.apply_transparent engine) _ _ _).bare_of_ok rfl hm
    obtain ⟨parts, hr, hp⟩ := renderElements_rendered _ _ _ s q hq
    refine ⟨parts, q.bare, hr, congrArg (l.leave s) ?_⟩
    rw [Loop.appendText_eq, Scope.appendAll_eq, hql, Layer.nil_passThrough, hqf, hp,
      Bool.not_true, ← l.layout_eq]
    have hb : m.bare.bindings = q.bare.bindings := by rw [hqb]
    have hc : m.bare.counter = q.bare.counter := by rw [hqb]
    exact Scope.eq_of_parts hb rfl hc rfl

/-- **Separators and layers.** A loop with elements whose render succeeds has rendered its body on
    bare scopes, one element after the other, and appends its opening text, their layout and its
    closing text to its scope; bindings and counter are those of that undecorated run. The layout
    has a separator before every element that renders something but the first, each one between
    two fragments that are not blank. Under whatever layers, the body does what it does on the bare
    scope. -/
theorem Template.loop_separated {s s' : Scope} {r : Bool} {e : Element} {es : List Element}
    (he : engine.elements l.collection s.bindings = .ok (e :: es))
    (h : (Template.loop l body).apply engine s = .ok r s') :
    (∀ d : Scope, body.apply engine d = d.onto (body.apply engine d.bare)) ∧
      ∃ parts last, Rendered engine l body s.bare (e :: es) parts last ∧
        s' = l.leave s (s.receive { last with fragments := l.laidOut parts }) ∧
        ((l.layout parts).count none =
          if l.separation.isEmpty then 0 else parts.countP Part.speaks - 1) ∧
        ∀ before after, l.layout parts = before ++ none :: after →
          Voiced before ∧ ∃ f rest, after = some f :: rest ∧ isBlankText f = false := by
  refine ⟨body.apply_transparent engine, ?_⟩
  rw [(Template.loop l body).apply_transparent engine s, Template.apply] at h
  cases hq : l.apply engine (body.apply engine) s.bare with
  | error e q =>
    rw [hq] at h
    cases h
  | ok b q =>
    rw [hq] at h
    cases h
    obtain ⟨parts, last, hr, rfl⟩ := loop_laidOut he hq
    refine ⟨parts, last, hr, (leave_receive l s s _).symm, l.count_layout parts, ?_⟩
    intro before after hl
    exact l.layout_between parts hl

end Renders

/-- A loop with a separator over three elements, whose body is a loop with texts of its own. -/
def separatedLoops : Loop × Template :=
  ({ collection := "rows", item := some "x", opening := some "(", closing := some ")"
     separator := some "," },
    .loop { collection := "cells", item := some "y", separator := some "+" }
      (.conditional "y" (.ofText "#{x.id} - #{y}")))

/-- Loops over three elements in a scope that renames and separates fragments itself. -/
theorem loop_separated_nested :
    ∃ r s', (Template.loop separatedLoops.1 separatedLoops.2).apply
        (.constant (.seq [.int 4, .int 5, .int 6]))
        { layers := [.renaming (some "y") none 9, .separator ";" false] } = .ok r s' ∧
      ∃ parts last, Rendered (.constant (.seq [.int 4, .int 5, .int 6])) separatedLoops.1
          separatedLoops.2 {} [⟨.int 0, .int 4⟩, ⟨.int 1, .int 5⟩, ⟨.int 2, .int 6⟩] parts last ∧
        (separatedLoops.1.layout parts).count none = parts.countP Part.speaks - 1 := by
  have hok : RenderM.succeeds ((Template.loop separatedLoops.1 separatedLoops.2).apply
      (.constant (.seq [.int 4, .int 5, .int 6])))
      { layers := [.renaming (some "y") none 9, .separator ";" false] } = true := by
    decide +kernel
  obtain ⟨r, s', h⟩ := RenderM.ok_of_succeeds hok
  obtain ⟨-, parts, last, hr, -, hc, -⟩ := Template.loop_separated rfl h
  exact ⟨r, s', h, parts, last, hr, hc⟩

end SqlTemplate
