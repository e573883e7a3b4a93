import Mathlib.Data.List.Forall2
import SqlTemplate.Backend
import SqlTemplate.Proofs.Finalize
import SqlTemplate.Proofs.Fragments
import SqlTemplate.Proofs.Hygiene
import SqlTemplate.Proofs.PathReading
import SqlTemplate.Proofs.Static

/-!
# Deferred binding

A placeholder is written while a loop variable stands for one element, and its value is read once
the render is over. This file shows that the value is the one of the moment of writing.

* `eagerFrom`: what a renderer records that reads each placeholder when its literal is appended;
* `Loop.IsScoped`, `Legible`: what loops and fragments have to look like;
* `Deferred`: how a content that comes out of a run is related to the one that went in: it is the
  same and its first name stands for the same entry, or its first name has become the name of an
  element that stands for the entry of that moment;
* `run_contents`: how contents come out of a run, for any relation that the layers carry on;
* `run_deferred`: the contents of a run are deferred from those of its journal one by one;
* `run_agreeOutside`: what a run does not change of the bindings, at any moment;
* `Backend.render_eager`: the values of a query are the recorded ones.
-/

namespace SqlTemplate

/-! ## 1. Reading at once -/

namespace Bindings

/-- The value of a path that no entry answers for. -/
def readBehind (b : Bindings) (path : String) : Value :=
  match b.shape with
  | .absent => .null
  | .scalar => b.parameter
  | _ => (b.readParameter? path).getD .null

/-- The value of a path at this moment: it is read from the entry under its first name, and without
    such an entry from the parameter. A path that leads nowhere gives a missing value. -/
def readNow (b : Bindings) (path : String) : Value :=
  match rootName? path with
  | some root => if b.contains root then (b.readOwn? path).getD .null else b.readBehind path
  | none => b.readBehind path

/-- A path that starts with a name is read from its entry if there is one. -/
theorem readNow_name {path root : String} {rest : List Path.Step}
    (h : Path.parse path = .name root :: rest) (b : Bindings) :
    b.readNow path = match b.entries.get? root with
      | some v => (Path.read? v rest).getD .null
      | none => b.readBehind path := by
  have hroot : rootName? path = some root := by
    unfold rootName?
    rw [h]
  unfold readNow contains
  rw [hroot, readOwn?_name h]
  cases hg : b.entries.get? root with
  | none => simp only [hg, Option.isSome_none, Bool.false_eq_true, ↓reduceIte]
  | some v => simp only [hg, Option.isSome_some, ↓reduceIte, Option.bind_some]

/-- Every other path is read from the parameter. -/
theorem readNow_unnamed {path : String} (h : rootName? path = none) (b : Bindings) :
    b.readNow path = b.readBehind path := by
  unfold readNow
  rw [h]

/-- Whether two bindings have the same parameter behind them. -/
def SameParameter (b b' : Bindings) : Prop :=
  b'.source = b.source ∧ b'.entries.get? parameterName = b.entries.get? parameterName

theorem SameParameter.readBehind {b b' : Bindings} (h : SameParameter b b') (path : String) :
    b'.readBehind path = b.readBehind path := by
  unfold Bindings.readBehind Bindings.shape Bindings.parameter Bindings.readParameter?
  rw [h.1, h.2]

end Bindings

/-- A marker for a property is bound to what its path gives. -/
theorem Marker.resolve_property {m : Marker} (h : m.expression = none) (b : Bindings)
    (engine : Engine) : m.resolve b engine = .ok (b.readNow m.property) := by
  unfold resolve Bindings.readNow Bindings.readBehind
  rw [h]
  cases Bindings.rootName? m.property with
  | none =>
    cases b.shape with
    | absent => rfl
    | scalar => rfl
    | mapping => rfl
    | structured => rfl
  | some root =>
    cases hc : b.contains root with
    | true => simp only [hc, ↓reduceIte]
    | false =>
      simp only [hc, Bool.false_eq_true, ↓reduceIte]
      cases b.shape with
      | absent => rfl
      | scalar => rfl
      | mapping => rfl
      | structured => rfl

/-- The placeholders of a journal, each with the bindings of the moment when its literal is
    appended. -/
def readings : List Event → List (List Char × Bindings)
  | [] => []
  | .appended fragment b :: js =>
    (Delimiters.bind.contents fragment.toList).map (fun content => (content, b)) ++ readings js
  | .entered _ _ _ :: js => readings js

theorem readings_append (js ks : List Event) :
    readings (js ++ ks) = readings js ++ readings ks := by
  induction js with
  | nil => rfl
  | cons j js ih =>
    cases j with
    | appended f b =>
      show _ ++ readings (js ++ ks) = _ ++ readings js ++ readings ks
      rw [ih, List.append_assoc]
    | entered l k e => exact ih

/-- What a renderer records that reads each placeholder at once: the values of those that a driver
    reads, each with its position. -/
def eagerFrom : Nat → List (List Char × Bindings) → Except RenderError (List Query.Bound)
  | _, [] => .ok []
  | position, (content, b) :: rest => do
    let m ← Marker.ofContent content b
    let others ← eagerFrom (position + 1) rest
    return if m.direction.isInput then ⟨position, b.readNow m.property⟩ :: others else others

/-! ## 2. Loops and fragments -/

/-- Whether the variables of a loop are identifiers that a render has no use of its own for, and
    whether its texts hold no placeholders. -/
structure Loop.IsScoped (l : Loop) : Prop where
  identifiers : ∀ n ∈ l.names, IsVariable n
  plain : l.IsPlain
  not_value : Literal.valueName ∉ l.names
  not_parameter : Bindings.parameterName ∉ l.names
  texts : ∀ x ∈ l.opening.toList ++ l.separator.toList ++ l.closing.toList,
    Text.occursIn Delimiters.bind.opening x.toList = false

/-- Whether a content asks for a path that does not start with a name of the render's own. -/
def IsReadable (content : List Char) : Prop :=
  ∃ p : PathContent, p.text = content ∧ isKept p.rootName = true

/-- Whether a fragment holds no backslash, closes its placeholders and asks for paths in them. -/
structure Legible (fragment : String) : Prop where
  unescaped : escapeChar ∉ fragment.toList
  closed : ∀ rest, Piece.unterminated rest ∉ Delimiters.bind.pieces fragment.toList
  readable : ∀ content ∈ Delimiters.bind.contents fragment.toList, IsReadable content

/-! ## 3. Contents on their way out -/

/-- How a content that has come out of a run is related to the one that went in, given the bindings
    of that moment. `outer` are the entries that the run keeps and `last` those in the end. -/
inductive Deferred (outer last : Entries) : List Char × Bindings → List Char → Prop where
  /-- No loop of the run has the first name for a variable: it stands for what it stood for. -/
  | plain (p : PathContent) {b : Bindings} (hk : isKept p.rootName = true)
      (hb : b.entries.get? p.rootName = outer.get? p.rootName) :
      Deferred outer last (p.text, b) p.text
  /-- The first name was a variable and is now the name of an element, which stands for the value of
      that moment. -/
  | renamed (p : PathContent) {b : Bindings} {suffix : Nat} {v : Value}
      (hn : IsVariable p.rootName) (hb : b.entries.get? p.rootName = some v)
      (hl : last.get? (elementName p.rootName suffix) = some v) :
      Deferred outer last (p.text, b) (p.renamed hn suffix).text

/-- The kept entries tell what a kept name stands for. -/
theorem get?_kept {n : String} (h : isKept n = true) (es : Entries) :
    es.kept.get? n = es.get? n := Entries.get?_only isKept h es

section Element

variable {l : Loop} {s : Scope} {e : Element} {n : String}

theorem filter_isKept {name : Option String} (hk : isKept n = true) (h : name = some n) :
    name.filter isKept = some n := by
  rw [h, Option.filter, hk]
  rfl

theorem filter_isKept_ne {name : Option String} (h : name ≠ some n) :
    name.filter isKept ≠ some n := by
  cases name with
  | none =>
    intro e
    cases e
  | some m =>
    cases hm : isKept m with
    | true =>
      rw [Option.filter, hm]
      exact h
    | false =>
      rw [Option.filter, hm]
      intro e
      cases e

/-- While an element is rendered, the item stands for its value. -/
theorem get?_enter_item (hk : isKept n = true) (h : l.item = some n) :
    (l.enter e s).bindings.entries.kept.get? n = some e.value := by
  rw [kept_enter, filter_isKept hk h]
  exact Entries.get?_set_self n _ _

/-- While an element is rendered, the index stands for its key, unless it is the item too. -/
theorem get?_enter_index (hk : isKept n = true) (h : l.index = some n) (hi : l.item ≠ some n) :
    (l.enter e s).bindings.entries.kept.get? n = some e.key := by
  rw [kept_enter, Entries.get?_put_of_ne (filter_isKept_ne hi), filter_isKept hk h]
  exact Entries.get?_set_self n _ _

/-- Other names stand for what they stood for outside of the loop. -/
theorem Entering.get? {outer es : Entries} (h : Entering l outer es) (hn : n ∉ l.names) :
    es.get? n = outer.get? n := by
  rw [Loop.mem_names, not_or] at hn
  rcases h with rfl | ⟨v, k, rfl⟩
  · rfl
  · rw [Entries.get?_put_of_ne (filter_isKept_ne hn.1),
      Entries.get?_put_of_ne (filter_isKept_ne hn.2)]

end Element

/-- **The layers of an element hand a content on** as a loop should: if its first name is one of the
    variables, it becomes the name of the element, which stands for the same. -/
theorem Deferred.passElement {l : Loop} (hl : l.IsScoped) {outer last : Entries} {s : Scope}
    {e : Element} (ho : Entering l outer s.bindings.entries.kept)
    (hn : l.Named s.counter e last) {r : List Char × Bindings} {content : List Char}
    (h : Deferred (l.enter e s).bindings.entries.kept last r content) :
    Deferred outer last r (Layer.rename l.item l.index s.counter content) := by
  have hi : ∀ n, l.item = some n → IsVariable n := fun n hn =>
    hl.identifiers n (Loop.mem_names.mpr (.inl hn))
  have hx : ∀ n, l.index = some n → IsVariable n := fun n hn =>
    hl.identifiers n (Loop.mem_names.mpr (.inr hn))
  cases h with
  | plain p hk hb =>
    by_cases hitem : l.item = some p.rootName
    · rw [get?_enter_item hk hitem] at hb
      rw [p.rename_text s.counter hi (hi _ hitem) (.inl hitem)]
      exact .renamed p _ hb (hn.1 _ hitem)
    · by_cases hindex : l.index = some p.rootName
      · rw [get?_enter_index hk hindex hitem] at hb
        rw [p.rename_text s.counter hi (hx _ hindex) (.inr hindex)]
        exact .renamed p _ hb (hn.2 _ hindex hitem)
      · rw [p.rename_other s.counter hi hx hitem hindex]
        have hnames : p.rootName ∉ l.names := fun hmem =>
          (Loop.mem_names.mp hmem).elim hitem hindex
        exact .plain p hk (hb.trans ((ho.enter e).get? hnames))
  | @renamed p b suffix v hv hb hlast =>
    have other (name : Option String) (hname : ∀ n, name = some n → n ∈ l.names) :
        name ≠ some (p.renamed hv suffix).rootName := by
      intro heq
      have hplain := hl.plain _ (hname _ heq)
      rw [p.rootName_renamed, isElementName_elementName] at hplain
      cases hplain
    rw [PathContent.rename_other _ s.counter hi hx
      (other l.item fun n hn => Loop.mem_names.mpr (.inl hn))
      (other l.index fun n hn => Loop.mem_names.mpr (.inr hn))]
    exact .renamed p hv hb hlast

/-! ## 4. Runs -/

/-- Whether `outer` are the entries that a task keeps, when it finds `now`. The elements of a loop
    may find the variables written. -/
def Task.Within (outer now : Entries) : Task → Prop
  | .elements l _ _ _ => Entering l outer now
  | _ => now = outer

/-- Whether the layers of an element carry a relation on: what holds of a content that has come out
    of its body holds of the renamed one, for a task that keeps the entries outside of the loop. -/
def Loop.Carries (l : Loop) (suffix : Nat) (e : Element)
    (R : Entries → List Char × Bindings → List Char → Prop) : Prop :=
  ∀ (s : Scope) (outer : Entries) (r : List Char × Bindings) (content : List Char),
    s.counter = suffix → Entering l outer s.bindings.entries.kept →
      R (l.enter e s).bindings.entries.kept r content →
        R outer r (Layer.rename l.item l.index suffix content)

variable {engine : Engine}

/-- **The contents that come out of a run are related to those of its journal**, one by one and in
    order, if they are where they are written and the layers of the elements carry the relation
    on. -/
theorem run_contents {R : Entries → List Char × Bindings → List Char → Prop} {task : Task}
    {s s' : Scope} {out : List String} {js : List Event} (h : Run engine task s s' out js)
    (hl : ∀ l ∈ task.loops, l.IsMute) (hw : ∀ f b, Event.appended f b ∈ js → Whole f)
    (hf : ∀ f b, Event.appended f b ∈ js →
      ∀ content ∈ fragmentContents f, R b.entries.kept (content, b) content)
    (he : ∀ l ∈ task.loops, ∀ k e, Event.entered l k e ∈ js → l.Carries k e R)
    {outer : Entries} (ho : task.Within outer s.bindings.entries.kept) :
    ∃ ts, WholeAll out ts ∧ List.Forall₂ (R outer) (readings js) ts := by
  induction h generalizing outer with
  | @literal l s s' text hs =>
    have hk : s'.bindings.entries.kept = outer := (kept_exposed (Literal.scan_exposed hs)).trans ho
    have hfrag := hf _ _ List.mem_cons_self
    rw [hk] at hfrag
    refine ⟨_, .single (hw _ _ List.mem_cons_self), ?_⟩
    show List.Forall₂ (R outer) (_ ++ []) _
    rw [List.append_nil, List.forall₂_map_left_iff]
    exact List.forall₂_same.mpr hfrag
  | skip => exact ⟨[], .nil, .nil⟩
  | hold _ _ ih => exact ih hl hw hf he ho
  | sequence _ ih => exact ih hl hw hf he ho
  | nil => exact ⟨[], .nil, .nil⟩
  | cons ht _ iht ihr =>
    obtain ⟨ts, hts, hds⟩ := iht (fun l h => hl l (List.mem_append_left _ h))
      (fun f b h => hw f b (List.mem_append_left _ h))
      (fun f b h => hf f b (List.mem_append_left _ h))
      (fun l h k e hk => he l (List.mem_append_left _ h) k e (List.mem_append_left _ hk)) ho
    obtain ⟨us, hus, hes⟩ := ihr (fun l h => hl l (List.mem_append_right _ h))
      (fun f b h => hw f b (List.mem_append_right _ h))
      (fun f b h => hf f b (List.mem_append_right _ h))
      (fun l h k e hk => he l (List.mem_append_right _ h) k e (List.mem_append_right _ hk))
      (Eq.trans (run_keeps ht) ho)
    rw [readings_append]
    exact ⟨ts ++ us, hts.append hus, List.rel_append hds hes⟩
  | empty => exact ⟨[], .nil, .nil⟩
  | @loop l body s s' e es out js _ _ ih =>
    obtain ⟨ts, hts, hds⟩ := ih hl hw hf he (.inl ho)
    exact ⟨ts, hts.surround (hl l List.mem_cons_self), hds⟩
  | done => exact ⟨[], .nil, .nil⟩
  | @element l body first e es s m s' out outs js ks hb hr ihb ihr =>
    have ho : Entering l outer s.bindings.entries.kept := ho
    -- the body finds the variables written and keeps what it finds
    obtain ⟨ts, hts, hds⟩ := ihb (fun l h => hl l (List.mem_cons_of_mem _ h))
      (fun f b h => hw f b (List.mem_cons_of_mem _ (List.mem_append_left _ h)))
      (fun f b h => hf f b (List.mem_cons_of_mem _ (List.mem_append_left _ h)))
      (fun l h k e hk => he l (List.mem_cons_of_mem _ h) k e
        (List.mem_cons_of_mem _ (List.mem_append_left _ hk))) rfl
    have hm : m.bindings.entries.kept = (l.enter e s).bindings.entries.kept := run_keeps hb
    have hwithin : Entering l outer m.bindings.entries.kept := by
      rw [hm]
      exact ho.enter e
    obtain ⟨us, hus, hes⟩ := ihr hl
      (fun f b h => hw f b (List.mem_cons_of_mem _ (List.mem_append_right _ h)))
      (fun f b h => hf f b (List.mem_cons_of_mem _ (List.mem_append_right _ h)))
      (fun l h k e hk => he l h k e (List.mem_cons_of_mem _ (List.mem_append_right _ hk))) hwithin
    have hcarry := he l List.mem_cons_self s.counter e List.mem_cons_self
    have hpass : List.Forall₂ (R outer) (readings js)
        (ts.map (Layer.rename l.item l.index s.counter)) := by
      rw [List.forall₂_map_right_iff]
      exact hds.imp fun r t h => hcarry s outer r t rfl ho h
    refine ⟨ts.map (Layer.rename l.item l.index s.counter) ++ us, ?_, ?_⟩
    · exact (hts.passElement (hl l List.mem_cons_self) first s.counter).append hus
    · show List.Forall₂ (R outer) (readings (js ++ ks)) _
      rw [readings_append]
      exact List.rel_append hpass hes

/-- A legible fragment is whole: nothing is escaped without a backslash. -/
theorem Legible.whole {f : String} (h : Legible f) : Whole f :=
  ⟨isUnescaped_of_not_mem h.unescaped, h.closed⟩

/-- **The contents of a run are deferred from those of its journal**, as long as the names of its
    elements stand for them in the end. -/
theorem run_deferred {task : Task} {s s' : Scope} {out : List String} {js : List Event}
    (h : Run engine task s s' out js) (hl : ∀ l ∈ task.loops, l.IsScoped)
    (hf : ∀ f b, Event.appended f b ∈ js → Legible f) {last : Entries}
    (hn : ∀ l k e, Event.entered l k e ∈ js → l.Named k e last) {outer : Entries}
    (ho : task.Within outer s.bindings.entries.kept) :
    ∃ ts, WholeAll out ts ∧ List.Forall₂ (Deferred outer last) (readings js) ts := by
  refine run_contents (R := fun outer => Deferred outer last) h (fun l hmem => (hl l hmem).texts)
    (fun f b hmem => (hf f b hmem).whole) (fun f b hmem content hc => ?_)
    (fun l hmem k e hk => ?_) ho
  · obtain ⟨p, rfl, hk⟩ := (hf f b hmem).readable content hc
    exact .plain p hk (get?_kept hk b.entries).symm
  · rintro s outer r content rfl hin hd
    exact hd.passElement (hl l hmem) hin (hn l _ e hk)

/-! ## 5. The bindings along a run -/

/-- Whether bindings have the same parameter behind them and agree on the names that belong neither
    to a render nor to `names`. -/
structure Bindings.AgreeOutside (names : List String) (b b' : Bindings) : Prop where
  source : b'.source = b.source
  entries : ∀ n, isKept n = true → n ∉ names → b'.entries.get? n = b.entries.get? n

open Bindings (AgreeOutside SameParameter)

section Outside

variable {names : List String}

namespace Bindings.AgreeOutside

theorem rfl (b : Bindings) : AgreeOutside names b b := ⟨Eq.refl _, fun _ _ _ => Eq.refl _⟩

theorem symm {b c : Bindings} (h : AgreeOutside names b c) : AgreeOutside names c b :=
  ⟨h.source.symm, fun n hk hn => (h.entries n hk hn).symm⟩

theorem trans {b c d : Bindings} (h : AgreeOutside names b c) (h' : AgreeOutside names c d) :
    AgreeOutside names b d :=
  ⟨h'.source.trans h.source, fun n hk hn => (h'.entries n hk hn).trans (h.entries n hk hn)⟩

/-- The parameter has an entry too, which no variable may have the name of. -/
theorem sameParameter {b b' : Bindings} (h : AgreeOutside names b b')
    (hn : Bindings.parameterName ∉ names) : SameParameter b b' :=
  ⟨h.source, h.entries _ (by decide +kernel) hn⟩

end Bindings.AgreeOutside

theorem agreeOutside_bind {name : String} (h : isKept name = false ∨ name ∈ names) (v : Value)
    (s : Scope) : AgreeOutside names s.bindings (s.bind name v).bindings := by
  refine ⟨rfl, fun n hk hn => Entries.get?_set_of_ne ?_ v _⟩
  rintro rfl
  rcases h with h | h
  · rw [hk] at h
    cases h
  · exact hn h

theorem agreeOutside_exposed {s s' : Scope} (h : Literal.Exposed s s') :
    AgreeOutside names s.bindings s'.bindings := by
  rcases h with rfl | ⟨v, rfl⟩
  · exact .rfl _
  · exact agreeOutside_bind (.inl isKept_valueName) v s

theorem agreeOutside_bindVariable (name : Option String) (h : ∀ n, name = some n → n ∈ names)
    (suffix : Nat) (v : Value) (s : Scope) :
    AgreeOutside names s.bindings (Loop.bindVariable name suffix v s).bindings := by
  cases name with
  | none => exact .rfl _
  | some n =>
    exact (agreeOutside_bind (.inr (h n rfl)) v s).trans
      (agreeOutside_bind (.inl (isKept_elementName n suffix)) v _)

theorem agreeOutside_restore {name : Option String} (h : ∀ n, name = some n → n ∈ names)
    (before : Option Value) (s : Scope) :
    AgreeOutside names s.bindings (Loop.restore name before s).bindings := by
  cases name with
  | none => exact .rfl _
  | some n =>
    cases before with
    | none =>
      refine ⟨rfl, fun m _ hm => Entries.get?_erase_of_ne ?_ _⟩
      rintro rfl
      exact hm (h n rfl)
    | some v => exact agreeOutside_bind (.inr (h n rfl)) v s

theorem agreeOutside_enter {l : Loop} (h : ∀ n ∈ l.names, n ∈ names) (e : Element) (s : Scope) :
    AgreeOutside names s.bindings (l.enter e s).bindings := by
  have hx := agreeOutside_bindVariable l.index
    (fun n hn => h n (Loop.mem_names.mpr (.inr hn))) s.counter e.key
    { s with counter := s.counter + 1 }
  exact hx.trans (agreeOutside_bindVariable l.item (fun n hn => h n (Loop.mem_names.mpr (.inl hn)))
    s.counter e.value _)

theorem agreeOutside_leave {l : Loop} (h : ∀ n ∈ l.names, n ∈ names) (before s : Scope) :
    AgreeOutside names s.bindings (l.leave before s).bindings :=
  (agreeOutside_restore (fun n hn => h n (Loop.mem_names.mpr (.inl hn))) _ s).trans
    (agreeOutside_restore (fun n hn => h n (Loop.mem_names.mpr (.inr hn))) _ _)

/-- **Only the variables of its loops and its own names change along a run**: everything else is the
    same at every moment and in the end. -/
theorem run_agreeOutside {task : Task} {s s' : Scope} {out : List String} {js : List Event}
    (h : Run engine task s s' out js) (hl : ∀ l ∈ task.loops, ∀ n ∈ l.names, n ∈ names) :
    (∀ f b, Event.appended f b ∈ js → AgreeOutside names s.bindings b) ∧
      AgreeOutside names s.bindings s'.bindings := by
  induction h with
  | @literal l s s' text hs =>
    have he : AgreeOutside names _ _ := agreeOutside_exposed (Literal.scan_exposed hs)
    refine ⟨fun f b hmem => ?_, he⟩
    cases List.mem_singleton.mp hmem
    exact he
  | skip => exact ⟨fun _ _ h => absurd h List.not_mem_nil, .rfl _⟩
  | hold _ _ ih => exact ih hl
  | sequence _ ih => exact ih hl
  | nil => exact ⟨fun _ _ h => absurd h List.not_mem_nil, .rfl _⟩
  | cons _ _ iht ihr =>
    obtain ⟨hj, hm⟩ := iht fun l h => hl l (List.mem_append_left _ h)
    obtain ⟨hk, hs⟩ := ihr fun l h => hl l (List.mem_append_right _ h)
    refine ⟨fun f b hmem => ?_, hm.trans hs⟩
    rcases List.mem_append.mp hmem with hmem | hmem
    · exact hj f b hmem
    · exact hm.trans (hk f b hmem)
  | empty => exact ⟨fun _ _ h => absurd h List.not_mem_nil, .rfl _⟩
  | loop _ _ ih =>
    obtain ⟨hj, hs⟩ := ih hl
    exact ⟨hj, hs.trans (agreeOutside_leave (hl _ List.mem_cons_self) _ _)⟩
  | done => exact ⟨fun _ _ h => absurd h List.not_mem_nil, .rfl _⟩
  | @element l body first e es s m s' out outs js ks _ _ ihb ihr =>
    have hin := agreeOutside_enter (hl l List.mem_cons_self) e s
    obtain ⟨hj, hm⟩ := ihb fun l h => hl l (List.mem_cons_of_mem _ h)
    obtain ⟨hk, hs⟩ := ihr hl
    refine ⟨fun f b hmem => ?_, (hin.trans hm).trans hs⟩
    rcases List.mem_cons.mp hmem with hmem | hmem
    · cases hmem
    · rcases List.mem_append.mp hmem with hmem | hmem
      · exact hin.trans (hj f b hmem)
      · exact (hin.trans hm).trans (hk f b hmem)

end Outside

/-- The names of the variables of the loops of a task. -/
def Task.variables (task : Task) : List String := task.loops.flatMap Loop.names

theorem Task.mem_variables {task : Task} :
    ∀ l ∈ task.loops, ∀ n ∈ l.names, n ∈ task.variables :=
  fun l hl _ hn => List.mem_flatMap.mpr ⟨l, hl, hn⟩

/-- The parameter is the same at every moment of a run and in the end. -/
theorem run_sameParameter {task : Task} {s s' : Scope} {out : List String} {js : List Event}
    (h : Run engine task s s' out js) (hl : ∀ l ∈ task.loops, l.IsScoped) :
    (∀ f b, Event.appended f b ∈ js → SameParameter s.bindings b) ∧
      SameParameter s.bindings s'.bindings := by
  have hn : Bindings.parameterName ∉ task.variables := by
    intro hmem
    obtain ⟨l, hmem, hn⟩ := List.mem_flatMap.mp hmem
    exact (hl l hmem).not_parameter hn
  obtain ⟨hj, hs⟩ := run_agreeOutside h Task.mem_variables
  exact ⟨fun f b hmem => (hj f b hmem).sameParameter hn, hs.sameParameter hn⟩

theorem mem_readings {js : List Event} {r : List Char × Bindings} (h : r ∈ readings js) :
    ∃ f, Event.appended f r.2 ∈ js := by
  induction js with
  | nil => cases h
  | cons j js ih =>
    cases j with
    | appended f b =>
      rcases List.mem_append.mp h with h | h
      · obtain ⟨content, -, rfl⟩ := List.mem_map.mp h
        exact ⟨f, List.mem_cons_self⟩
      · obtain ⟨f', hf'⟩ := ih h
        exact ⟨f', List.mem_cons_of_mem _ hf'⟩
    | entered l k e =>
      obtain ⟨f', hf'⟩ := ih h
      exact ⟨f', List.mem_cons_of_mem _ hf'⟩

/-! ## 6. Values -/

/-- What a path with a first name reads. -/
theorem PathContent.readNow_path (p : PathContent) (h : p.root ≠ []) (b : Bindings) :
    b.readNow (String.ofList p.path) =
      match b.entries.get? p.rootName with
      | some v => (Path.read? v p.steps).getD .null
      | none => b.readBehind (String.ofList p.path) := by
  unfold Bindings.readNow Bindings.contains
  rw [p.rootName?_path h, p.readOwn?_path h]
  cases he : b.entries.get? p.rootName with
  | none => simp only [he, Option.isSome_none, Bool.false_eq_true, ↓reduceIte]
  | some v => simp only [he, Option.isSome_some, ↓reduceIte, Option.bind_some]

/-- A path reads the same wherever its first name stands for the same and the parameter is the
    same. -/
theorem PathContent.readNow_congr (p : PathContent) {b z : Bindings} (hp : SameParameter b z)
    (h : z.entries.get? p.rootName = b.entries.get? p.rootName) :
    z.readNow (String.ofList p.path) = b.readNow (String.ofList p.path) := by
  by_cases hr : p.root = []
  · unfold Bindings.readNow
    rw [p.rootName?_path_none hr]
    exact hp.readBehind _
  · rw [p.readNow_path hr, p.readNow_path hr, h, hp.readBehind]

/-- A path with the name of an element in front reads what the path reads while its first name
    stands for that element. -/
theorem PathContent.readNow_renamed (p : PathContent) (hn : IsVariable p.rootName) {suffix : Nat}
    {v : Value} {b z : Bindings} (hb : b.entries.get? p.rootName = some v)
    (hz : z.entries.get? (elementName p.rootName suffix) = some v) :
    z.readNow (String.ofList (p.renamed hn suffix).path) = b.readNow (String.ofList p.path) := by
  have hr : p.root ≠ [] := by
    intro h
    refine hn.1 ?_
    unfold PathContent.rootName
    rw [String.toList_ofList, h]
  have hr' : (p.renamed hn suffix).root ≠ [] := by
    rw [p.root_renamed]
    intro h
    have hh := head?_elementName p.rootName suffix []
    rw [h] at hh
    cases hh
  have hsteps : (p.renamed hn suffix).steps = p.steps := by
    unfold PathContent.steps
    rw [p.tail_renamed]
  rw [p.readNow_path hr, (p.renamed hn suffix).readNow_path hr', p.rootName_renamed, hsteps, hb, hz]

/-- **A marker is bound to what its placeholder reads when it is written.** -/
theorem Deferred.value {outer : Entries} {z b : Bindings} {content content' : List Char}
    (h : Deferred outer z.entries (content, b) content') (ho : z.entries.kept = outer)
    (hp : SameParameter b z) {m' : Marker} (hm : Marker.ofContent content' z = .ok m') :
    ∃ m, Marker.ofContent content b = .ok m ∧ m.direction = m'.direction ∧
      ∀ engine, m'.resolve z engine = .ok (b.readNow m.property) := by
  cases h with
  | plain p hk hb =>
    obtain ⟨m, hof, hd, hpath, hpath', hx⟩ := PathContent.ofContent_congr rfl hm b
    refine ⟨m, hof, hd, fun engine => ?_⟩
    have hz : z.entries.get? p.rootName = b.entries.get? p.rootName := by
      rw [hb, ← ho, get?_kept hk]
    rw [Marker.resolve_property hx, hpath', hpath, p.readNow_congr hp hz]
  | @renamed p _ suffix _ hn hb hl =>
    have hr : (p.renamed hn suffix).rest = p.rest := rfl
    obtain ⟨m, hof, hd, hpath, hpath', hx⟩ := PathContent.ofContent_congr hr hm b
    refine ⟨m, hof, hd, fun engine => ?_⟩
    rw [Marker.resolve_property hx, hpath', hpath, p.readNow_renamed hn hb hl]

/-- The values of a query are those that have been recorded, position by position. -/
theorem valuesFrom_eager {outer : Entries} {z : Bindings} (ho : z.entries.kept = outer)
    {rs : List (List Char × Bindings)} {contents : List (List Char)}
    (h : List.Forall₂ (Deferred outer z.entries) rs contents)
    (hp : ∀ r ∈ rs, SameParameter r.2 z) {ms : List Marker}
    (hm : ofContents z contents = .ok ms) (position : Nat) :
    ∃ bounds, eagerFrom position rs = .ok bounds ∧
      ∀ engine, Query.valuesFrom z engine position ms = .ok bounds := by
  induction h generalizing ms position with
  | nil =>
    cases hm
    exact ⟨[], rfl, fun _ => rfl⟩
  | @cons r content' rs contents hd _ ih =>
    obtain ⟨content, b⟩ := r
    obtain ⟨m', others, hm', hms, rfl⟩ := ofContents_cons_ok hm
    obtain ⟨m, hof, hdir, hval⟩ := hd.value ho (hp _ List.mem_cons_self) hm'
    obtain ⟨bounds, he, hv⟩ :=
      ih (fun r hr => hp r (List.mem_cons_of_mem _ hr)) hms (position + 1)
    refine ⟨if m.direction.isInput then ⟨position, b.readNow m.property⟩ :: bounds
      else bounds, ?_, fun engine => ?_⟩
    · simp only [eagerFrom, hof, he, bind, Except.bind, pure, Except.pure]
    · rw [Query.valuesFrom, ← hdir, hval engine, hv engine]
      cases m.direction.isInput with
      | true => rfl
      | false => rfl

/-- **Deferred binding is eager reading.** When the loops of a template are scoped, the values of
    its query are what a renderer would record that reads each placeholder at the moment when its
    literal is appended, as long as the fragments of the literals are legible: for every engine,
    marker by marker. -/
theorem Backend.render_eager {b : Backend} {t : Template} {parameter : Value}
    {accessor : Option Accessor} {q : Query} (hl : ∀ l ∈ t.loops, l.IsScoped)
    (h : b.render t parameter accessor = .ok q) :
    ∃ s' out js, Run b.engine (.template t)
        (.ofBindings (b.bindingsFor parameter accessor)) s' out js ∧
      ((∀ f now, Event.appended f now ∈ js → Legible f) →
        ∃ bounds, eagerFrom 1 (readings js) = .ok bounds ∧
          ∀ engine, q.values engine = .ok bounds) := by
  unfold Backend.render Backend.renderScope at h
  cases ha : t.apply b.engine (.ofBindings (b.bindingsFor parameter accessor)) with
  | error e s =>
    rw [ha] at h
    cases h
  | ok r scope =>
    simp only [ha] at h
    obtain ⟨js, hr⟩ := run_of_apply t (.ofBindings (b.bindingsFor parameter accessor)) scope r ha
    refine ⟨scope.bare, scope.fragments, js, hr, fun hf => ?_⟩
    have hh := run_hygienic hr fun l hmem => (hl l hmem).plain
    have hn : ∀ l k e, Event.entered l k e ∈ js → l.Named k e scope.bindings.entries := by
      intro l k e hmem
      obtain ⟨before, after, hjs⟩ := List.append_of_mem hmem
      exact hh.named before l k e after hjs _ (List.mem_append_right _ (List.mem_singleton_self _))
    obtain ⟨ts, hts, hds⟩ := run_deferred hr hl hf hn rfl
    obtain ⟨hsame, hlast⟩ := run_sameParameter hr hl
    rw [Query.finalize_eq, hts.contents_text] at h
    cases hms : ofContents scope.bindings ts with
    | error e =>
      rw [hms] at h
      cases h
    | ok ms =>
      rw [hms] at h
      cases h
      refine valuesFrom_eager hh.kept hds (fun r hmem => ?_) hms 1
      obtain ⟨f, hj⟩ := mem_readings hmem
      have hnow := hsame f r.2 hj
      exact ⟨hlast.1.trans hnow.1.symm, hlast.2.trans hnow.2.symm⟩

/-! ## 7. Literals without substitutions -/

mutual

/-- The literals of a template, at any depth. -/
def Template.literals : Template → List Literal
  | .literal l => [l]
  | .conditional _ body => Template.literals body
  | .loop _ body => Template.literals body
  | .sequence children => Template.allLiterals children

/-- The literals of templates. -/
def Template.allLiterals : List Template → List Literal
  | [] => []
  | child :: rest => Template.literals child ++ Template.allLiterals rest

end

/-- The literals of what is rendered. -/
def Task.literals : Task → List Literal
  | .template t => t.literals
  | .templates ts => Template.allLiterals ts
  | .elements _ body _ _ => body.literals

/-- **Without substitutions, fragments can be told from the literals**: what they append is their
    text. -/
theorem run_static {p : String → Prop} {task : Task} {s s' : Scope} {out : List String} {js : List Event}
    (h : Run engine task s s' out js)
    (hl : ∀ l ∈ task.literals, l.isDynamic = false ∧ p l.staticText) :
    ∀ f b, Event.appended f b ∈ js → p f := by
  induction h with
  | @literal l s s' text hs =>
    intro f b hmem
    obtain ⟨hd, hf⟩ := hl l List.mem_cons_self
    rw [Literal.scan_static hd] at hs
    obtain ⟨rfl, -⟩ := RenderM.pure_ok.mp hs
    cases List.mem_singleton.mp hmem
    exact hf
  | skip => exact fun _ _ h => absurd h List.not_mem_nil
  | hold _ _ ih => exact ih hl
  | sequence _ ih => exact ih hl
  | nil => exact fun _ _ h => absurd h List.not_mem_nil
  | cons _ _ iht ihr =>
    intro f b hmem
    rcases List.mem_append.mp hmem with hmem | hmem
    · exact iht (fun l h => hl l (List.mem_append_left _ h)) f b hmem
    · exact ihr (fun l h => hl l (List.mem_append_right _ h)) f b hmem
  | empty => exact fun _ _ h => absurd h List.not_mem_nil
  | loop _ _ ih => exact ih hl
  | done => exact fun _ _ h => absurd h List.not_mem_nil
  | element _ _ ihb ihr =>
    intro f b hmem
    rcases List.mem_cons.mp hmem with hmem | hmem
    · cases hmem
    · rcases List.mem_append.mp hmem with hmem | hmem
      · exact ihb hl f b hmem
      · exact ihr hl f b hmem

/-- A fragment that is one placeholder is legible if its content is readable. -/
theorem legible_placeholder {fragment : String} {content : List Char}
    (hp : Delimiters.bind.pieces fragment.toList = [.text [], .token content, .text []])
    (he : escapeChar ∉ fragment.toList) (hr : IsReadable content) : Legible fragment := by
  refine ⟨he, isClosed_of_token _ hp, fun c hc => ?_⟩
  rw [Delimiters.contents_eq, hp] at hc
  rw [List.mem_singleton.mp hc]
  exact hr

/-- A path and what may follow it. -/
theorem isReadable_path (path rest : List Char) (hc : path.all isPathChar = true) (hn : path ≠ [])
    (hs : ∀ c, path.head? = some c → c ≠ '.' ∧ c ≠ '(' ∧ Placeholder.isSkipped c = false)
    (hr : ∀ c, (Text.trimStart rest).head? = some c → c = ',' ∨ c = ':')
    (hk : isKept (String.ofList (path.takeWhile fun c => !endsRoot c)) = true) :
    IsReadable (path ++ rest) :=
  ⟨⟨[], path, rest, fun _ h => absurd h List.not_mem_nil, List.all_eq_true.mp hc, hn, hs, hr⟩,
    rfl, hk⟩

/-- Every placeholder of the nested loops asks for a path that starts with a variable. -/
theorem nestedLoops_legible : ∀ l ∈ nestedLoops.literals,
    l.isDynamic = false ∧ Legible l.staticText := by
  have hx : IsReadable ['x'] := isReadable_path ['x'] [] (by decide) (by decide)
    (by intro c hc; cases hc; decide) (by intro c hc; cases hc) (by decide +kernel)
  have hid : IsReadable "x.id:INTEGER".toList :=
    isReadable_path "x.id".toList ":INTEGER".toList (by decide +kernel) (by decide)
      (by intro c hc; cases hc; decide) (by intro c hc; cases hc; exact .inr rfl)
      (by decide +kernel)
  have hi : IsReadable "x_0".toList :=
    isReadable_path "x_0".toList [] (by decide +kernel) (by decide)
      (by intro c hc; cases hc; decide) (by intro c hc; cases hc) (by decide +kernel)
  intro l hl
  rcases List.mem_cons.mp hl with rfl | hl
  · exact ⟨by decide +kernel, legible_placeholder (by decide +kernel) (by decide +kernel) hx⟩
  rcases List.mem_cons.mp hl with rfl | hl
  · exact ⟨by decide +kernel, legible_placeholder (by decide +kernel) (by decide +kernel) hid⟩
  obtain rfl := List.mem_singleton.mp hl
  exact ⟨by decide +kernel, legible_placeholder (by decide +kernel) (by decide +kernel) hi⟩

theorem nestedLoops_scoped : ∀ l ∈ nestedLoops.loops, l.IsScoped := by
  intro l hl
  rcases List.mem_cons.mp hl with rfl | hl
  · refine ⟨?_, ?_, by decide +kernel, by decide +kernel, by decide +kernel⟩
    · decide +kernel
    · unfold Loop.IsPlain
      decide +kernel
  obtain rfl := List.mem_singleton.mp hl
  refine ⟨?_, ?_, by decide +kernel, by decide +kernel, by decide +kernel⟩
  · decide +kernel
  · unfold Loop.IsPlain
    decide +kernel

/-- The nested loops over one element each: every placeholder is bound to its own element. -/
theorem nestedLoops_eager :
    ∃ q s' out js,
      Backend.render { engine := .constant (.seq [.int 1]) } nestedLoops .null none = .ok q ∧
      Run (.constant (.seq [.int 1])) (.template nestedLoops)
        (.ofBindings (.forParameter .null none none)) s' out js ∧
      ∃ bounds, eagerFrom 1 (readings js) = .ok bounds ∧
        ∀ engine, q.values engine = .ok bounds := by
  have hok : (Backend.render { engine := .constant (.seq [.int 1]) } nestedLoops .null
      none).isOk = true := by decide +kernel
  cases hq : Backend.render { engine := .constant (.seq [.int 1]) } nestedLoops .null
      none with
  | error e =>
    rw [hq] at hok
    cases hok
  | ok q =>
    obtain ⟨s', out, js, hr, hv⟩ := Backend.render_eager nestedLoops_scoped hq
    exact ⟨q, s', out, js, rfl, hr, hv (run_static hr nestedLoops_legible)⟩

end SqlTemplate
