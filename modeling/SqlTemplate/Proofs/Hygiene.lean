import SqlTemplate.Proofs.Asking

/-!
# Hygiene of loops

What a render leaves behind in the bindings, over a whole tree of templates.

* `run_keeps`: the entries that do not belong to a render are those of before;
* `run_suffixes`: the elements take the numbers from the old counter up to the new one;
* `Recorded`, `run_recorded`: the entries under names of elements are those that the journal writes
  down, at the end and at every literal on the way;
* `Template.apply_hygienic`: the three together, for a render into any scope.
-/

namespace SqlTemplate

/-! ## 1. The loops of a tree -/

/-- The names of the variables of a loop. -/
def Loop.names (l : Loop) : List String := l.item.toList ++ l.index.toList

theorem Loop.mem_names {l : Loop} {n : String} :
    n ∈ l.names ↔ l.item = some n ∨ l.index = some n := by
  unfold names
  rw [List.mem_append, Option.mem_toList, Option.mem_toList]

mutual

/-- The loops of a template, at any depth. -/
def Template.loops : Template → List Loop
  | .literal _ => []
  | .conditional _ body => Template.loops body
  | .loop l body => l :: Template.loops body
  | .sequence children => Template.allLoops children

/-- The loops of templates. -/
def Template.allLoops : List Template → List Loop
  | [] => []
  | child :: rest => Template.loops child ++ Template.allLoops rest

end

/-- The loops of what is rendered. -/
def Task.loops : Task → List Loop
  | .template t => t.loops
  | .templates ts => Template.allLoops ts
  | .elements l body _ _ => l :: body.loops

/-- Whether the variables of a loop do not look like names of elements. -/
def Loop.IsPlain (l : Loop) : Prop := ∀ n ∈ l.names, isElementName n = false

theorem Loop.IsPlain.item {l : Loop} (h : l.IsPlain) {n : String} (hn : l.item = some n) :
    isElementName n = false := h n (Loop.mem_names.mpr (.inl hn))

theorem Loop.IsPlain.index {l : Loop} (h : l.IsPlain) {n : String} (hn : l.index = some n) :
    isElementName n = false := h n (Loop.mem_names.mpr (.inr hn))

/-! ## 2. The entries of before -/

section Kept

theorem kept_enter (l : Loop) (e : Element) (s : Scope) :
    (l.enter e s).bindings.entries.kept =
      Entries.put (l.item.filter isKept) e.value
        (Entries.put (l.index.filter isKept) e.key s.bindings.entries.kept) :=
  only_enter isKept_elementName l e s

theorem kept_exposed {s s' : Scope} (h : Literal.Exposed s s') :
    s'.bindings.entries.kept = s.bindings.entries.kept := by
  rcases h with rfl | ⟨v, rfl⟩
  · rfl
  · exact Entries.only_set_other isKept isKept_valueName v _

/-- The entries of before while the elements of a loop are rendered. -/
def Entering (l : Loop) (start es : Entries) : Prop := EnteringOnly isKept l start es

theorem Entering.enter {l : Loop} {start : Entries} {s : Scope} (e : Element)
    (h : Entering l start s.bindings.entries.kept) :
    Entering l start (l.enter e s).bindings.entries.kept :=
  EnteringOnly.enter isKept_elementName e h

variable {engine : Engine}

/-- What a task does to the entries of before. -/
def Task.Keeps (start es : Entries) (task : Task) : Prop := task.KeepsOnly isKept start es

/-- The entries of before, along a run. The elements of a loop may leave its variables written. -/
theorem run_keeps {task : Task} {s s' : Scope} {out : List String} {js : List Event}
    (h : Run engine task s s' out js) :
    task.Keeps s.bindings.entries.kept s'.bindings.entries.kept :=
  run_only isKept_elementName h fun hv => (nomatch hv)

end Kept

/-! ## 3. The numbers of elements -/

/-- The number that an event gives to an element. -/
def Event.suffix? : Event → Option Nat
  | .appended _ _ => none
  | .entered _ suffix _ => some suffix

/-- The numbers that a journal gives, in order. -/
def suffixes (js : List Event) : List Nat := js.filterMap Event.suffix?

theorem suffixes_append (js ks : List Event) : suffixes (js ++ ks) = suffixes js ++ suffixes ks :=
  List.filterMap_append

/-- **The numbers are taken in order**, one per element. -/
theorem run_suffixes {engine : Engine} {task : Task} {s s' : Scope} {out : List String}
    {js : List Event} (h : Run engine task s s' out js) :
    suffixes js = List.range' s.counter (suffixes js).length ∧
      s'.counter = s.counter + (suffixes js).length := by
  induction h with
  | literal hs => exact ⟨rfl, (Literal.scan_exposed hs).counter⟩
  | skip => exact ⟨rfl, rfl⟩
  | hold _ _ ih => exact ih
  | sequence _ ih => exact ih
  | nil => exact ⟨rfl, rfl⟩
  | cons _ _ iht ihr =>
    rw [suffixes_append, List.length_append]
    refine ⟨?_, by rw [ihr.2, iht.2, Nat.add_assoc]⟩
    rw [← List.range'_append_1, ← iht.1, ← iht.2, ← ihr.1]
  | empty => exact ⟨rfl, rfl⟩
  | loop _ _ ih => exact ⟨ih.1, by rw [Loop.leave_counter, ih.2]⟩
  | done => exact ⟨rfl, rfl⟩
  | @element l _ _ e _ s _ _ _ _ js ks _ _ ihb ihr =>
    have hj : suffixes (.entered l s.counter e :: js ++ ks) =
        s.counter :: (suffixes js ++ suffixes ks) := by
      rw [List.cons_append, ← suffixes_append]
      rfl
    rw [hj, List.length_cons, List.length_append]
    rw [Loop.enter_counter] at ihb
    refine ⟨?_, by rw [ihr.2, ihb.2]; omega⟩
    rw [List.range'_succ, ← List.range'_append_1, ← ihb.1, ← ihb.2, ← ihr.1]

/-! ## 4. The names of elements -/

/-- Writes the names of one element down. -/
def Loop.record (l : Loop) (suffix : Nat) (e : Element) (es : Entries) : Entries :=
  Entries.put (l.item.map fun n => elementName n suffix) e.value
    (Entries.put (l.index.map fun n => elementName n suffix) e.key es)

/-- Whether a journal accounts for the entries under names of elements: it makes `es'` of `es`, and
    at each literal they are what has been written down so far. -/
def Recorded : List Event → Entries → Entries → Prop
  | [], es, es' => es' = es
  | .appended _ b :: js, es, es' => b.entries.elements = es ∧ Recorded js es es'
  | .entered l suffix e :: js, es, es' => Recorded js (l.record suffix e es) es'

theorem Recorded.append {js ks : List Event} {es ms es' : Entries} (h : Recorded js es ms)
    (h' : Recorded ks ms es') : Recorded (js ++ ks) es es' := by
  induction js generalizing es with
  | nil =>
    have hm : ms = es := h
    rw [← hm]
    exact h'
  | cons j js ih =>
    cases j with
    | appended f b => exact ⟨h.1, ih h.2⟩
    | entered l k e => exact ih h

theorem elements_bindVariable {name : Option String} {suffix : Nat} {v : Value} {s : Scope}
    (hn : ∀ n, name = some n → isElementName n = false) :
    (Loop.bindVariable name suffix v s).bindings.entries.elements =
      Entries.put (name.map fun n => elementName n suffix) v s.bindings.entries.elements := by
  cases name with
  | none => rfl
  | some n =>
    show Entries.only isElementName (Entries.set (elementName n suffix) v (Entries.set n v _)) = _
    rw [Entries.only_set isElementName (isElementName_elementName n suffix),
      Entries.only_set_other isElementName (hn n rfl)]
    rfl

theorem elements_enter {l : Loop} (hl : l.IsPlain) (e : Element) (s : Scope) :
    (l.enter e s).bindings.entries.elements =
      l.record s.counter e s.bindings.entries.elements := by
  unfold Loop.enter
  rw [elements_bindVariable fun _ => hl.item, elements_bindVariable fun _ => hl.index]
  rfl

theorem filter_isElementName {name : Option String}
    (hn : ∀ n, name = some n → isElementName n = false) : name.filter isElementName = none := by
  cases name with
  | none => rfl
  | some n => simp only [Option.filter, hn n rfl]; rfl

theorem elements_leave {l : Loop} (hl : l.IsPlain) (before s : Scope) :
    (l.leave before s).bindings.entries.elements = s.bindings.entries.elements := by
  rw [leave_entries]
  unfold Entries.elements
  rw [Entries.only_restore, Entries.only_restore, filter_isElementName fun _ => hl.item,
    filter_isElementName fun _ => hl.index]
  rfl

theorem elements_exposed {s s' : Scope} (h : Literal.Exposed s s') :
    s'.bindings.entries.elements = s.bindings.entries.elements := by
  rcases h with rfl | ⟨v, rfl⟩
  · rfl
  · exact Entries.only_set_other isElementName isElementName_valueName v _

/-- **The journal accounts for the entries under names of elements.** -/
theorem run_recorded {engine : Engine} {task : Task} {s s' : Scope} {out : List String}
    {js : List Event} (h : Run engine task s s' out js) (hp : ∀ l ∈ task.loops, l.IsPlain) :
    Recorded js s.bindings.entries.elements s'.bindings.entries.elements := by
  induction h with
  | literal hs => exact ⟨elements_exposed (Literal.scan_exposed hs),
      elements_exposed (Literal.scan_exposed hs)⟩
  | skip => rfl
  | hold _ _ ih => exact ih hp
  | sequence _ ih => exact ih hp
  | nil => rfl
  | cons _ _ iht ihr =>
    exact (iht fun l hl => hp l (List.mem_append_left _ hl)).append
      (ihr fun l hl => hp l (List.mem_append_right _ hl))
  | empty => rfl
  | loop _ _ ih =>
    rw [elements_leave (hp _ List.mem_cons_self)]
    exact ih hp
  | done => rfl
  | @element l _ _ e _ s _ _ _ _ _ _ _ _ ihb ihr =>
    have hb := ihb fun l hl => hp l (List.mem_cons_of_mem _ hl)
    rw [elements_enter (hp l List.mem_cons_self)] at hb
    exact hb.append (ihr hp)

/-! ## 5. What the names of an element stand for -/

/-- Whether the names of an element stand for its value and its key. One name for both stands for
    the value. -/
def Loop.Named (l : Loop) (suffix : Nat) (e : Element) (es : Entries) : Prop :=
  (∀ n, l.item = some n → es.get? (elementName n suffix) = some e.value) ∧
    ∀ m, l.index = some m → l.item ≠ some m → es.get? (elementName m suffix) = some e.key

theorem record_named (l : Loop) (suffix : Nat) (e : Element) (es : Entries) :
    l.Named suffix e (l.record suffix e es) := by
  refine ⟨fun n hn => ?_, fun m hm hne => ?_⟩
  · unfold Loop.record
    rw [hn]
    exact Entries.get?_set_self _ _ _
  · unfold Loop.record
    rw [hm]
    cases hi : l.item with
    | none => exact Entries.get?_set_self _ _ _
    | some n =>
      have hnm : elementName n suffix ≠ elementName m suffix := fun h =>
        hne (by rw [hi, (elementName_inj h).1])
      exact (Entries.get?_set_of_ne hnm _ _).trans (Entries.get?_set_self _ _ _)

/-- The names of one element are not those of another one. -/
theorem get?_record {l : Loop} {suffix k : Nat} (h : k ≠ suffix) (n : String) (e : Element)
    (es : Entries) :
    (l.record suffix e es).get? (elementName n k) = es.get? (elementName n k) := by
  have other (name : Option String) (v : Value) (es : Entries) :
      (Entries.put (name.map fun m => elementName m suffix) v es).get? (elementName n k) =
        es.get? (elementName n k) := by
    cases name with
    | none => rfl
    | some m => exact Entries.get?_set_of_ne (fun e => h (elementName_inj e).2.symm) _ _
  unfold Loop.record
  rw [other, other]

/-- The entries at the literals of a journal and behind it. -/
def moments (js : List Event) (last : Entries) : List Entries :=
  js.filterMap (fun
    | .appended _ b => some b.entries
    | .entered _ _ _ => none) ++ [last]

/-- A number that a journal does not give away names the same at all its moments. -/
theorem Recorded.stays {js : List Event} {es last : Entries} {k : Nat}
    (h : Recorded js es last.elements) (hk : k ∉ suffixes js) (n : String) :
    ∀ now ∈ moments js last, now.get? (elementName n k) = es.get? (elementName n k) := by
  have read (now : Entries) :
      now.elements.get? (elementName n k) = now.get? (elementName n k) :=
    Entries.get?_only isElementName (isElementName_elementName n k) now
  induction js generalizing es with
  | nil =>
    intro now hnow
    have hes : last.elements = es := h
    rw [List.mem_singleton.mp hnow, ← hes, read]
  | cons j js ih =>
    cases j with
    | appended f b =>
      intro now hnow
      rcases List.mem_cons.mp hnow with rfl | hnow
      · rw [← h.1, read]
      · exact ih h.2 hk now hnow
    | entered l suffix e =>
      intro now hnow
      have hne : k ≠ suffix := fun e => hk (e ▸ List.mem_cons_self)
      have hks : k ∉ suffixes js := fun h => hk (List.mem_cons_of_mem _ h)
      rw [ih h hks now hnow, get?_record hne]

/-- Once an element has got its number, its names stand for it for good. -/
theorem Recorded.named {js ks : List Event} {l : Loop} {suffix : Nat} {e : Element}
    {es last : Entries} (h : Recorded (js ++ .entered l suffix e :: ks) es last.elements)
    (hk : suffix ∉ suffixes ks) : ∀ now ∈ moments ks last, l.Named suffix e now := by
  induction js generalizing es with
  | nil =>
    have hr : Recorded ks (l.record suffix e es) last.elements := h
    have hs := hr.stays hk
    obtain ⟨hitem, hindex⟩ := record_named l suffix e es
    intro now hnow
    refine ⟨fun n hn => ?_, fun m hm hne => ?_⟩
    · rw [hs n now hnow, hitem n hn]
    · rw [hs m now hnow, hindex m hm hne]
  | cons j js ih =>
    cases j with
    | appended f b => exact ih h.2
    | entered l' k' e' => exact ih h

theorem mem_names_put {name : Option String} {n : String} {v : Value} {es : Entries}
    (h : n ∈ (Entries.put name v es).map Prod.fst) : name = some n ∨ n ∈ es.map Prod.fst := by
  cases name with
  | none => exact .inr h
  | some m => exact (Entries.mem_names_set h).imp (fun e => congrArg some e.symm) id

/-- A journal accounts for every name of an element. -/
theorem Recorded.mem_names {js : List Event} {es es' : Entries} {n : String}
    (h : Recorded js es es') (hn : n ∈ es'.map Prod.fst) :
    n ∈ es.map Prod.fst ∨
      ∃ l k e m, Event.entered l k e ∈ js ∧ m ∈ l.names ∧ n = elementName m k := by
  induction js generalizing es with
  | nil =>
    have hes : es' = es := h
    exact .inl (hes ▸ hn)
  | cons j js ih =>
    cases j with
    | appended f b =>
      refine (ih h.2).imp id ?_
      rintro ⟨l, k, e, m, hj, hm⟩
      exact ⟨l, k, e, m, List.mem_cons_of_mem _ hj, hm⟩
    | entered l k e =>
      rcases ih h with hn | ⟨l', k', e', m, hj, hm⟩
      · rcases mem_names_put hn with hi | hn
        · obtain ⟨m, hm, rfl⟩ := Option.map_eq_some_iff.mp hi
          exact .inr ⟨l, k, e, m, List.mem_cons_self, Loop.mem_names.mpr (.inl hm), rfl⟩
        · rcases mem_names_put hn with hi | hn
          · obtain ⟨m, hm, rfl⟩ := Option.map_eq_some_iff.mp hi
            exact .inr ⟨l, k, e, m, List.mem_cons_self, Loop.mem_names.mpr (.inr hm), rfl⟩
          · exact .inl hn
      · exact .inr ⟨l', k', e', m, List.mem_cons_of_mem _ hj, hm⟩

/-! ## 6. Renders -/

/-- What holds between the scope before a render and the one behind it, given the journal. -/
structure Hygienic (s s' : Scope) (js : List Event) : Prop where
  /-- The entries of before are the same, in the same order. -/
  kept : s'.bindings.entries.kept = s.bindings.entries.kept
  /-- The counter does not fall. -/
  counter : s.counter ≤ s'.counter
  /-- The elements of all loops get the numbers between the two counters, each one once. -/
  suffixes : suffixes js = List.range' s.counter (s'.counter - s.counter)
  /-- The names of an element stand for it at every later literal and in the end. -/
  named : ∀ before l k e after, js = before ++ .entered l k e :: after →
    ∀ now ∈ moments after s'.bindings.entries, l.Named k e now
  /-- Nothing else has got an entry. -/
  names : ∀ n ∈ s'.bindings.entries.map Prod.fst,
    n ∈ s.bindings.entries.map Prod.fst ∨ n = Literal.valueName ∨
      ∃ l k e m, Event.entered l k e ∈ js ∧ m ∈ l.names ∧ n = elementName m k

theorem run_hygienic {engine : Engine} {t : Template} {s s' : Scope} {out : List String}
    {js : List Event} (h : Run engine (.template t) s s' out js)
    (hp : ∀ l ∈ t.loops, l.IsPlain) : Hygienic s s' js := by
  obtain ⟨hs, hc⟩ := run_suffixes h
  have hk : s'.bindings.entries.kept = s.bindings.entries.kept := run_keeps h
  have hr := run_recorded h hp
  refine ⟨hk, by omega, by rw [hc, Nat.add_sub_cancel_left]; exact hs, ?_, ?_⟩
  · rintro before l k e after rfl
    refine hr.named fun hmem => ?_
    have hnd : (suffixes before ++ k :: suffixes after).Nodup := by
      have heq : suffixes (before ++ .entered l k e :: after) =
          suffixes before ++ k :: suffixes after := suffixes_append _ _
      rw [← heq, hs]
      exact List.nodup_range'
    exact (List.nodup_cons.mp (List.nodup_append.mp hnd).2.1).1 hmem
  · intro n hn
    by_cases hv : n = Literal.valueName
    · exact .inr (.inl hv)
    cases he : isElementName n with
    | true =>
      have hmem := (Entries.mem_names_only isElementName).mpr ⟨hn, he⟩
      rcases hr.mem_names hmem with hold | hnew
      · exact .inl ((Entries.mem_names_only isElementName).mp hold).1
      · exact .inr (.inr hnew)
    | false =>
      have hkept : isKept n = true := by
        rw [isKept, isScratch, he, Bool.or_false, beq_false_of_ne hv]
        rfl
      have hmem := (Entries.mem_names_only isKept).mpr ⟨hn, hkept⟩
      have hold : n ∈ s.bindings.entries.kept.map Prod.fst := by rw [← hk]; exact hmem
      exact .inl ((Entries.mem_names_only isKept).mp hold).1

/-- **Hygiene of loops.** When the variables of a tree do not look like names of elements, a render
    into any scope keeps the entries of before, numbers all elements one after the other, and
    leaves nothing but the alias of a scalar parameter and the names of the elements. -/
theorem Template.apply_hygienic {engine : Engine} {t : Template} {s s' : Scope} {r : Bool}
    (hp : ∀ l ∈ t.loops, l.IsPlain) (h : t.apply engine s = .ok r s') :
    ∃ out js, Run engine (.template t) s.bare s'.bare out js ∧ Hygienic s s' js := by
  rw [t.apply_transparent engine s] at h
  cases hq : t.apply engine s.bare with
  | error e q =>
    rw [hq] at h
    cases h
  | ok b q =>
    rw [hq] at h
    cases h
    obtain ⟨js, hr⟩ := run_of_apply t s q _ hq
    obtain ⟨hk, hc, hs, hn, hm⟩ := run_hygienic hr hp
    exact ⟨q.fragments, js, hr, hk, hc, hs, hn, hm⟩

/-- A loop inside a loop with the same variable, between placeholders that name it. The index of the
    outer loop ends like the name of an element. -/
def nestedLoops : Template :=
  .loop { collection := "rows", item := some "x", index := some "x_0", separator := some "," }
    (.sequence [.ofText "#{x}",
      .loop { collection := "cells", item := some "x", opening := some "(", closing := some ")" }
        (.ofText "#{x.id:INTEGER}"),
      .ofText "#{x_0}"])

/-- Nested loops over two elements, in a scope that has an entry for the variable. -/
theorem nestedLoops_hygienic :
    ∃ r s' out js, nestedLoops.apply (.constant (.seq [.int 1, .int 2]))
        (.ofBindings { entries := [("x", .bool true)] }) = .ok r s' ∧
      Run (.constant (.seq [.int 1, .int 2])) (.template nestedLoops)
        (.ofBindings { entries := [("x", .bool true)] }) s'.bare out js ∧
      Hygienic (.ofBindings { entries := [("x", .bool true)] }) s' js := by
  have hp : ∀ l ∈ nestedLoops.loops, l.IsPlain := by
    unfold Loop.IsPlain
    decide +kernel
  have hok : RenderM.succeeds (nestedLoops.apply (.constant (.seq [.int 1, .int 2])))
      (.ofBindings { entries := [("x", .bool true)] }) = true := by decide +kernel
  obtain ⟨r, s', h⟩ := RenderM.ok_of_succeeds hok
  obtain ⟨out, js, hr, hh⟩ := Template.apply_hygienic hp h
  exact ⟨r, s', out, js, h, hr, hh⟩

end SqlTemplate
