import Mathlib.Data.List.Basic
import SqlTemplate.Backend
import SqlTemplate.Expression.Evaluate
import SqlTemplate.Proofs.Hygiene

/-!
# Lexical scope of loop variables

Loops write their variables into the one table of entries that substitutions, conditionals and inner
loops write to as well. In spite of that a variable stands for the current element of the innermost
loop that names it, at every moment of a render. The one exception is the alias of the parameter,
which a substitution may write while it names an element.

* `run_getOwn?`: a run leaves the entry of a name as it was;
* `Asks.getOwn?`: at each moment an entry is what the loops under way and the bindings of before say;
* `silent_of_exposed?`: when substitutions do not write the alias;
* `Backend.render_scoped`: loop variables are lexically scoped in every render;
* `aliasLoop_overwritten`: a variable with the name of the alias, under a scalar parameter.
-/

namespace SqlTemplate

variable {engine : Engine} {n : String}

/-! ## 1. One name along a run -/

theorem only_name_elementName (hn : isElementName n = false) (name : String) (suffix : Nat) :
    (elementName name suffix == n) = false := by
  refine beq_false_of_ne fun e => ?_
  rw [← e, isElementName_elementName] at hn
  cases hn

/-- The entry of a name that is not that of an element is the same after a run, if the run does not
    write the alias of the parameter under that name. -/
theorem run_getOwn? (hn : isElementName n = false) {t : Template} {s s' : Scope} {out : List String}
    {js : List Event} (h : Run engine (.template t) s s' out js)
    (hq : n = Literal.valueName → Silent engine (.template t) s) :
    s'.bindings.getOwn? n = s.bindings.getOwn? n := by
  have hkeeps : s'.bindings.entries.only (· == n) = s.bindings.entries.only (· == n) :=
    run_only (only_name_elementName hn) h fun hv => hq (eq_of_beq hv).symm
  have hself : (n == n) = true := beq_self_eq_true n
  unfold Bindings.getOwn?
  rw [← Entries.get?_only (· == n) hself, hkeeps, Entries.get?_only (· == n) hself]

theorem getOwn?_bindVariable (hn : isElementName n = false) (name : Option String) (suffix : Nat)
    (v : Value) (s : Scope) : (Loop.bindVariable name suffix v s).bindings.getOwn? n =
      if name = some n then some v else s.bindings.getOwn? n := by
  cases name with
  | none => rfl
  | some m =>
    have hne : elementName m suffix ≠ n := ne_of_beq_false (only_name_elementName hn m suffix)
    show Entries.get? n (Entries.set (elementName m suffix) v (Entries.set m v _)) = _
    rw [Entries.get?_set_of_ne hne]
    by_cases hm : m = n
    · rw [if_pos (congrArg some hm), hm, Entries.get?_set_self]
    · rw [if_neg fun e => hm (Option.some.inj e), Entries.get?_set_of_ne hm]
      rfl

/-- Entering an element writes what the loop says of it. -/
theorem getOwn?_enter (hn : isElementName n = false) (l : Loop) (e : Element) (s : Scope) :
    (l.enter e s).bindings.getOwn? n = ((⟨l, e⟩ : Frame).get? n).or (s.bindings.getOwn? n) := by
  unfold Loop.enter Frame.get?
  rw [getOwn?_bindVariable hn, getOwn?_bindVariable hn]
  by_cases hi : l.item = some n
  · simp only [hi, ↓reduceIte, Option.some_or]
  · by_cases hx : l.index = some n
    · simp only [hi, hx, ↓reduceIte, Option.some_or]
    · simp only [hi, hx, ↓reduceIte, Option.none_or]

/-- Exposing the parameter writes nothing but its alias. -/
theorem getOwn?_exposeParameter {s : Scope}
    (hx : n = Literal.valueName → s.bindings.exposed? = none) :
    (Literal.exposeParameter s).bindings.getOwn? n = s.bindings.getOwn? n := by
  cases h : s.bindings.exposed? with
  | none => rw [Literal.exposeParameter_none h]
  | some v =>
    have hne : Literal.valueName ≠ n := fun e => by rw [hx e.symm] at h; cases h
    rw [Literal.exposeParameter_some h]
    exact Entries.get?_set_of_ne hne v s.bindings.entries

/-! ## 2. One name at a moment -/

theorem Frame.get?_of_mem {f : Frame} (h : n ∈ f.loop.names) : ∃ v, f.get? n = some v := by
  unfold Frame.get?
  by_cases hi : f.loop.item = some n
  · exact ⟨_, if_pos hi⟩
  · rcases Loop.mem_names.mp h with h | hx
    · exact absurd h hi
    · exact ⟨_, by rw [if_neg hi, if_pos hx]⟩

theorem Frame.get?_of_not_mem {f : Frame} (h : n ∉ f.loop.names) : f.get? n = none := by
  have hi : f.loop.item ≠ some n := fun e => h (Loop.mem_names.mpr (.inl e))
  have hx : f.loop.index ≠ some n := fun e => h (Loop.mem_names.mpr (.inr e))
  unfold Frame.get?
  rw [if_neg hi, if_neg hx]

namespace Moment

theorem scoped?_within (q : Moment) (f : Frame) (n : String) (outer : Option Value) :
    (q.within f).scoped? n outer = q.scoped? n ((f.get? n).or outer) := by
  unfold scoped? within
  rw [List.findSome?_append, List.findSome?_singleton, Option.or_assoc]

end Moment

/-- The entry of a name at a substitution is that in front of its literal. -/
theorem Literal.Asks.getOwn? {l : Literal} {ps : List Piece} {s : Scope} {content : List Char}
    {b : Bindings} (h : l.Asks engine ps s content b)
    (hq : n = valueName → ∀ content b, l.Asks engine ps s content b → b.exposed? = none) :
    b.getOwn? n = s.bindings.getOwn? n := by
  have expose {s : Scope} {content : List Char} {ps : List Piece}
      (hq : n = valueName → ∀ c b, l.Asks engine (.token content :: ps) s c b → b.exposed? = none) :
      (exposeParameter s).bindings.getOwn? n = s.bindings.getOwn? n := by
    refine getOwn?_exposeParameter fun hv => ?_
    rw [← exposed?_exposeParameter]
    exact hq hv _ _ .here
  induction h with
  | here => exact expose hq
  | later hp _ ih =>
    rw [ih fun hv content b ha => hq hv content b (.later hp ha)]
    rcases renderPiece_ok hp with rfl | ⟨content, rfl, rfl⟩
    · rfl
    · exact expose hq

/-- What a name stands for in front of a task. A variable of a loop of which some elements have been
    rendered may stand for anything, since the next element writes it. -/
def Task.Outer (n : String) (s : Scope) (outer : Option Value) : Task → Prop
  | .elements l _ _ _ => n ∉ l.names → outer = s.bindings.getOwn? n
  | _ => outer = s.bindings.getOwn? n

/-- **The entry of a name at a moment** is what the loops under way say of it, or what it was in
    front of the render. -/
theorem Asks.getOwn? (hn : isElementName n = false) {task : Task} {s : Scope} {q : Moment}
    (h : Asks engine task s q) (hq : n = Literal.valueName → Silent engine task s)
    {outer : Option Value} (ho : task.Outer n s outer) :
    q.bindings.getOwn? n = q.scoped? n outer := by
  induction h generalizing outer with
  | @substitution l s content b ha =>
    have hs : outer = s.bindings.getOwn? n := ho
    rw [hs]
    exact ha.getOwn? fun hv _ _ hb => hq hv _ (.substitution hb) rfl
  | test => exact ho.symm
  | body ht _ ih => exact ih (fun hv q ha => hq hv q (.body ht ha)) ho
  | sequence _ ih => exact ih (fun hv q ha => hq hv q (.sequence ha)) ho
  | child _ ih => exact ih (fun hv q ha => hq hv q (.child ha)) ho
  | later hr _ ih =>
    refine ih (fun hv q ha => hq hv q (.later hr ha)) ?_
    have hm := run_getOwn? hn hr fun hv q ha => hq hv q (.child ha)
    exact Eq.trans ho hm.symm
  | collection => exact ho.symm
  | @loop l body s es q he _ ih => exact ih (fun hv q ha => hq hv q (.loop he ha)) fun _ => ho
  | @element l body first e es s q _ ih =>
    have hs : n ∉ l.names → outer = s.bindings.getOwn? n := ho
    rw [Moment.scoped?_within]
    refine ih (fun hv q ha => hq hv (q.within ⟨l, e⟩) (.element ha)) ?_
    show ((⟨l, e⟩ : Frame).get? n).or outer = (l.enter e s).bindings.getOwn? n
    rw [getOwn?_enter hn]
    by_cases hl : n ∈ l.names
    · obtain ⟨v, hv⟩ := Frame.get?_of_mem (f := ⟨l, e⟩) hl
      rw [hv, Option.some_or, Option.some_or]
    · rw [hs hl]
  | @next l body first e es s m out js q hr _ ih =>
    refine ih (fun hv q ha => hq hv q (.next hr ha)) fun hl => ?_
    have hs : outer = s.bindings.getOwn? n := ho hl
    have hm := run_getOwn? hn hr fun hv q ha => hq hv (q.within ⟨l, e⟩) (.element ha)
    have hf : (⟨l, e⟩ : Frame).get? n = none := Frame.get?_of_not_mem hl
    rw [hm, getOwn?_enter hn, hf, hs, Option.none_or]

/-! ## 3. The alias of the parameter -/

/-- The loops under way belong to what is rendered. -/
theorem Asks.mem_loops {task : Task} {s : Scope} {q : Moment} (h : Asks engine task s q) :
    ∀ f ∈ q.frames, f.loop ∈ task.loops := by
  induction h with
  | substitution => exact fun f hf => (nomatch hf)
  | test => exact fun f hf => (nomatch hf)
  | body _ _ ih => exact ih
  | sequence _ ih => exact ih
  | child _ ih => exact fun f hf => List.mem_append_left _ (ih f hf)
  | later _ _ ih => exact fun f hf => List.mem_append_right _ (ih f hf)
  | collection => exact fun f hf => (nomatch hf)
  | loop _ _ ih => exact ih
  | @element l _ _ e _ _ q _ ih =>
    intro f hf
    rcases List.mem_append.mp hf with hf | hf
    · exact List.mem_cons_of_mem _ (ih f hf)
    · rw [List.mem_singleton.mp hf]
      exact List.mem_cons_self
  | next _ _ ih => exact ih

theorem Bindings.exposed?_congr {b b' : Bindings}
    (h : b.getOwn? parameterName = b'.getOwn? parameterName) : b.exposed? = b'.exposed? := by
  unfold exposed?
  rw [h]

/-- Where the parameter is not exposed and no loop takes its name, nothing writes the alias. -/
theorem silent_of_exposed? {t : Template} {s : Scope} (hx : s.bindings.exposed? = none)
    (hl : ∀ l ∈ t.loops, Bindings.parameterName ∉ l.names) : Silent engine (.template t) s := by
  intro q hq _
  have hn : isElementName Bindings.parameterName = false := by decide +kernel
  have hne : Bindings.parameterName ≠ Literal.valueName := by decide
  have hown : q.bindings.getOwn? Bindings.parameterName =
      q.scoped? Bindings.parameterName (s.bindings.getOwn? Bindings.parameterName) :=
    hq.getOwn? hn (fun e => absurd e hne) rfl
  have hnone : q.frames.findSome? (·.get? Bindings.parameterName) = none :=
    List.findSome?_eq_none_iff.mpr fun f hf => Frame.get?_of_not_mem (hl _ (hq.mem_loops f hf))
  unfold Moment.scoped? at hown
  rw [hnone, Option.none_or] at hown
  rw [Bindings.exposed?_congr hown, hx]

/-- A substitution that writes the alias is asked for while the alias is the parameter. -/
theorem Asks.exposed {task : Task} {s : Scope} {q : Moment} (h : Asks engine task s q)
    (ha : q.asking = .value) {v : Value} (hv : q.bindings.exposed? = some v) :
    q.bindings.getOwn? Literal.valueName = some v := by
  have literal {l : Literal} {ps : List Piece} {s : Scope} {content : List Char} {b : Bindings}
      (h : l.Asks engine ps s content b) (hv : b.exposed? = some v) :
      b.getOwn? Literal.valueName = some v := by
    induction h with
    | @here content ps s =>
      rw [Literal.exposed?_exposeParameter] at hv
      rw [Literal.exposeParameter_some hv]
      exact Entries.get?_set_self Literal.valueName v s.bindings.entries
    | later _ _ ih => exact ih hv
  induction h with
  | substitution hl => exact literal hl hv
  | test => cases ha
  | body _ _ ih => exact ih ha hv
  | sequence _ ih => exact ih ha hv
  | child _ ih => exact ih ha hv
  | later _ _ ih => exact ih ha hv
  | collection => cases ha
  | loop _ _ ih => exact ih ha hv
  | element _ ih => exact ih ha hv
  | next _ _ ih => exact ih ha hv

/-- Mappings and structured objects are not exposed, and neither are sequences, which are wrapped
    into mappings. -/
theorem exposed?_forParameter (parameter : Value) (accessor : Option Accessor)
    (database : Option String) :
    (Bindings.forParameter parameter accessor database).exposed? = none ↔
      (Bindings.forParameter parameter accessor database).shape = .mapping ∨
        (Bindings.forParameter parameter accessor database).shape = .structured := by
  have scalar {b : Bindings} {v : Value} (hv : b.exposed? = some v) (hs : b.shape = .scalar) :
      b.exposed? = none ↔ b.shape = .mapping ∨ b.shape = .structured := by
    rw [hv, hs]
    exact ⟨fun h => (nomatch h), fun h => h.elim (fun h => (nomatch h)) fun h => (nomatch h)⟩
  cases parameter with
  | undefined => exact iff_of_false (fun h => (nomatch h)) fun h => h.elim (nomatch ·) (nomatch ·)
  | null => exact iff_of_false (fun h => (nomatch h)) fun h => h.elim (nomatch ·) (nomatch ·)
  | bool b => exact scalar rfl rfl
  | int n => exact scalar rfl rfl
  | float x => exact scalar rfl rfl
  | str text => exact scalar rfl rfl
  | bytes bs => exact scalar rfl rfl
  | seq items => exact iff_of_true rfl (.inl rfl)
  | iter items => exact iff_of_true rfl (.inl rfl)
  | map entries => exact iff_of_true rfl (.inl rfl)
  | object o =>
    refine iff_of_true rfl ?_
    unfold Bindings.shape Bindings.forParameter Bindings.seed
    dsimp only
    split
    · exact .inl rfl
    · exact .inr rfl

/-! ## 4. Renders -/

/-- The variables of the loops of a template are lexically scoped in a render from a scope. -/
structure Scoped (engine : Engine) (t : Template) (s : Scope) : Prop where
  /-- The engine is asked at the moments of the render and at no others. -/
  asked : ∀ engine', (∀ q, Asks engine (.template t) s q → q.Agrees engine engine') →
    t.apply engine' s = t.apply engine s
  /-- An entry that is not that of an element stands for what the innermost loop that names it says,
      or for what it stood for before. The alias of the parameter does if no substitution writes
      it. -/
  entries : ∀ q, Asks engine (.template t) s q → ∀ n, isElementName n = false →
    (n = Literal.valueName → Silent engine (.template t) s) →
    q.bindings.getOwn? n = q.scoped? n (s.bindings.getOwn? n)
  /-- A substitution that writes the alias sees the parameter under it. -/
  overwritten : ∀ q v, Asks engine (.template t) s q → q.asking = .value →
    q.bindings.exposed? = some v → q.bindings.getOwn? Literal.valueName = some v

/-- **Loop variables are lexically scoped**, at every moment of every render, except for the alias of
    the parameter. That one is scoped, too, when the parameter is a mapping, a structured object or a
    sequence, unless a loop variable takes the place of the parameter. -/
theorem Backend.render_scoped (b : Backend) (t : Template) (parameter : Value)
    (accessor : Option Accessor) :
    Scoped b.engine t (.ofBindings (b.bindingsFor parameter accessor)) ∧
      ((b.bindingsFor parameter accessor).shape = .mapping ∨
          (b.bindingsFor parameter accessor).shape = .structured →
        (∀ l ∈ t.loops, Bindings.parameterName ∉ l.names) →
        Silent b.engine (.template t) (.ofBindings (b.bindingsFor parameter accessor))) := by
  refine ⟨⟨fun engine' h => Template.apply_agrees h, fun q ha n hn hq => ha.getOwn? hn hq rfl,
    fun q v ha hv he => ha.exposed hv he⟩, fun hs hl => ?_⟩
  exact silent_of_exposed? ((exposed?_forParameter _ _ _).mpr hs) hl

/-- The first substitution of a literal is asked for. -/
theorem asks_first {l : Literal} {cs content : List Char} {ps : List Piece}
    (h : Delimiters.substitution.pieces l.text.toList = .text cs :: .token content :: ps)
    (s : Scope) : Asks engine (.template (.literal l)) s
      { asking := .value, expression := String.ofList content,
        bindings := (Literal.exposeParameter s).bindings } := by
  refine .substitution ?_
  rw [h]
  exact .later rfl .here

/-- A substitution of the alias. -/
def aliasText : Literal := { text := "$\x7bvalue\x7d" }

theorem aliasText_pieces : Delimiters.substitution.pieces aliasText.text.toList =
    [.text [], .token "value".toList, .text []] := by decide +kernel

/-- The loop over the given collection whose variable has the name of the alias. -/
def aliasLoop (collection : String) : Loop := { collection, item := some "value" }

/-- Such a loop inside another one, and the alias behind the inner one. -/
def aliasRows : Template :=
  .loop (aliasLoop "rows")
    (.sequence [.loop (aliasLoop "cells") (.literal aliasText), .literal aliasText])

/-- When the parameter is a mapping, the variable stands for the element of the outer loop again
    once the inner loop is over. -/
theorem aliasRows_scoped :
    ∃ q, Asks (.constant (.seq [.int 1, .int 2])) (.template aliasRows)
        (.ofBindings (.forParameter (.map []) none none)) q ∧
      q.frames = [⟨aliasLoop "rows", ⟨.int 0, .int 1⟩⟩] ∧
      q.bindings.getOwn? "value" = some (.int 1) := by
  let b : Backend := { engine := .constant (.seq [.int 1, .int 2]) }
  let s : Scope := .ofBindings (b.bindingsFor (.map []) none)
  let inside : Scope := (aliasLoop "rows").enter ⟨.int 0, .int 1⟩ s
  have hcells : RenderM.succeeds
      (Template.apply b.engine (.loop (aliasLoop "cells") (.literal aliasText))) inside.bare := by
    decide +kernel
  obtain ⟨r, m, hm⟩ := RenderM.ok_of_succeeds hcells
  obtain ⟨js, hrun⟩ := run_of_apply _ inside m r hm
  have hrun : Run b.engine (.template (.loop (aliasLoop "cells") (.literal aliasText))) inside m.bare
      m.fragments js := hrun
  obtain ⟨q, hq, hframes⟩ : ∃ q, Asks b.engine (.template aliasRows) s q ∧
      q.frames = [⟨aliasLoop "rows", ⟨.int 0, .int 1⟩⟩] :=
    ⟨_, .loop rfl (.element (.sequence (.later hrun (.child (asks_first aliasText_pieces m.bare))))),
      rfl⟩
  obtain ⟨hscoped, hsilent⟩ := b.render_scoped aliasRows (.map []) none
  have hown := hscoped.entries q hq "value" (by decide +kernel) fun _ =>
    hsilent (.inl rfl) (by decide +kernel)
  refine ⟨q, hq, hframes, hown.trans ?_⟩
  unfold Moment.scoped?
  rw [hframes]
  rfl

/-- **A substitution overwrites a loop variable with the name of the alias**: under a scalar
    parameter the variable stands for the parameter and not for the element, in the SQL as well. -/
theorem aliasLoop_overwritten :
    (∃ q, Asks (.constant (.seq [.int 1, .int 2])) (.template (.loop (aliasLoop "xs") (.literal aliasText)))
        (.ofBindings (.forParameter (.int 42) none none)) q ∧
      q.scoped? "value" none = some (.int 1) ∧ q.bindings.getOwn? "value" = some (.int 42)) ∧
    (Backend.render { engine := .standard } (.loop (aliasLoop "[1, 2]") (.literal aliasText)) (.int 42)
      none).map Query.sql = .ok "42 42" ∧
    (Backend.render { engine := .standard } (.loop (aliasLoop "[1, 2]") (.literal aliasText)) (.map [])
      none).map Query.sql = .ok "1 2" := by
  refine ⟨⟨_, .loop rfl (.element (asks_first aliasText_pieces _)), rfl, rfl⟩, ?_, ?_⟩
  · decide +kernel
  · decide +kernel

end SqlTemplate
