import SqlTemplate.Proofs.PathText

/-!
# Reading on from a value

A path with another one behind it, a dot between them, leads on from the value where the first one
ends. The first one must close its brackets, or they swallow the other.

* `Path.read?_append`: steps are taken one after the other;
* `Path.parse_append`: the steps of two paths with a dot between them;
* `Bindings.readOwn?_append`: reading on from what the entries hold;
* `Path.reads_compose`: reading on from a value, from the entries and from the element of a loop.
-/

namespace SqlTemplate

open Text (isBlank)

/-! ## 1. Steps -/

namespace Path

/-- **Steps are taken one after the other.** -/
theorem read?_append (v : Value) (front back : List Step) :
    read? v (front ++ back) = (read? v front).bind fun u => read? u back := by
  induction front generalizing v with
  | nil => rfl
  | cons step front ih =>
    rw [List.cons_append, read?, read?]
    cases step.take? v with
    | none => rfl
    | some w => exact ih w

/-- **A dot parts the steps of two paths** if the first one closes its brackets. -/
theorem parse_append {p : String} (h : Closed p.toList) (q : String) :
    parse (p ++ "." ++ q) = parse p ++ parse q := by
  have hdot : ∀ c, ('.' :: q.toList).head? = some c → endsRoot c = true := by
    intro c hc
    cases hc
    rfl
  have htext : (p ++ "." ++ q).toList = p.toList ++ '.' :: q.toList := by
    rw [String.toList_append, String.toList_append, List.append_assoc]
    rfl
  rw [parse_eq, parse_eq, parse_eq, htext, stepsFrom_append h hdot]
  rfl

/-- A name without dots, brackets and blanks is a path of one step. -/
theorem parse_name {name : String} (h : (Step.name name).IsPrintable) :
    parse name = [.name name] := by
  rw [parse_eq]
  exact (stepsFrom_text h).2

theorem closed_name {name : String} (h : (Step.name name).IsPrintable) : Closed name.toList :=
  closed_of_not_mem fun hm => (h.2 _ hm).2.1 rfl

/-- The name of an element is a path of one step if the name of the variable is. -/
theorem isPrintable_elementName {name : String} (h : (Step.name name).IsPrintable) (suffix : Nat) :
    (Step.name (elementName name suffix)).IsPrintable := by
  refine ⟨fun hn => ?_, forall_mem_elementName h.2 (fun _ => parts_of_isNameChar) suffix⟩
  rw [elementName_toList] at hn
  cases hn

end Path

/-! ## 2. Values and entries -/

/-- A path with a step reads what its steps lead to. -/
theorem Accessor.readPath_eq {path : String} (h : Path.parse path ≠ []) (v : Value) :
    readPath v path = Path.read? v (Path.parse path) := by
  unfold readPath
  split
  · rename_i hs
    exact absurd hs h
  · rfl

theorem Accessor.readPath_append {p q : String} (hp : Path.parse p ≠ []) (hq : Path.parse q ≠ [])
    (hc : Path.Closed p.toList) (v : Value) :
    readPath v (p ++ "." ++ q) = (readPath v p).bind fun u => readPath u q := by
  have hsteps : Path.parse (p ++ "." ++ q) ≠ [] := by
    rw [Path.parse_append hc]
    exact List.append_ne_nil_of_left_ne_nil hp _
  rw [readPath_eq hsteps, readPath_eq hp, Path.parse_append hc, Path.read?_append]
  exact congrArg _ (funext fun u => (readPath_eq hq u).symm)

namespace Bindings

/-- **Reading on from what the entries hold.** -/
theorem readOwn?_append {p q : String} (hp : Path.parse p ≠ []) (hq : Path.parse q ≠ [])
    (hc : Path.Closed p.toList) (b : Bindings) :
    b.readOwn? (p ++ "." ++ q) = (b.readOwn? p).bind fun u => Accessor.readPath u q := by
  have hsteps := Path.parse_append hc q
  cases hs : Path.parse p with
  | nil => exact absurd hs hp
  | cons step rest =>
    rw [hs, List.cons_append] at hsteps
    cases step with
    | name root =>
      rw [readOwn?_name hsteps, readOwn?_name hs, Option.bind_assoc]
      refine congrArg _ (funext fun v => ?_)
      rw [Path.read?_append]
      exact congrArg _ (funext fun u => (Accessor.readPath_eq hq u).symm)
    | index n =>
      unfold readOwn?
      rw [hsteps, hs]
      rfl
    | key s =>
      unfold readOwn?
      rw [hsteps, hs]
      rfl

/-- A name that is a path of one step reads its entry. -/
theorem readOwn?_of_name {name : String} (h : (Path.Step.name name).IsPrintable) (b : Bindings) :
    b.readOwn? name = b.getOwn? name := by
  rw [readOwn?_name (Path.parse_name h)]
  exact Option.bind_fun_some _

end Bindings

/-! ## 3. Composition -/

namespace Path

/-- **Reading a path with another one behind it is reading the other one from what the first one
    reads**: from a value, where there is something to read just when both can read, and from the
    entries of bindings. So a path behind the name of an element is read from the element. -/
theorem reads_compose {p q : String} (hp : parse p ≠ []) (hq : parse q ≠ [])
    (hc : Closed p.toList) :
    (∀ v, (Accessor.ofValue v).read (p ++ "." ++ q) =
      ((Accessor.ofValue v).read p).bind fun u => (Accessor.ofValue u).read q) ∧
    (∀ v, (Accessor.ofValue v).canRead (p ++ "." ++ q) = true ↔
      ∃ u, (Accessor.ofValue v).read p = some u ∧ (Accessor.ofValue u).canRead q = true) ∧
    (∀ b : Bindings, b.readOwn? (p ++ "." ++ q) =
      (b.readOwn? p).bind fun u => (Accessor.ofValue u).read q) ∧
    ∀ (b : Bindings) (name : String) (suffix : Nat), (Step.name name).IsPrintable →
      b.readOwn? (elementName name suffix ++ "." ++ q) =
        (b.getOwn? (elementName name suffix)).bind fun element =>
          (Accessor.ofValue element).read q := by
  have hread (v : Value) : (Accessor.ofValue v).read (p ++ "." ++ q) =
      ((Accessor.ofValue v).read p).bind fun u => (Accessor.ofValue u).read q :=
    Accessor.readPath_append hp hq hc v
  refine ⟨hread, fun v => ?_, Bindings.readOwn?_append hp hq hc, fun b name suffix hn => ?_⟩
  · unfold Accessor.canRead
    rw [hread]
    cases (Accessor.ofValue v).read p with
    | none =>
      constructor
      · intro h
        cases h
      · rintro ⟨u, hu, -⟩
        cases hu
    | some u =>
      constructor
      · intro h
        exact ⟨u, rfl, h⟩
      · rintro ⟨w, hw, h⟩
        cases hw
        exact h
  · have ha := isPrintable_elementName hn suffix
    have hne : parse (elementName name suffix) ≠ [] := by
      rw [parse_name ha]
      exact List.cons_ne_nil _ _
    rw [Bindings.readOwn?_append hne hq (closed_name ha), Bindings.readOwn?_of_name ha]
    rfl

/-- A row whose attribute has a dot in its name, and the rows around it. -/
def dottedRow : Value := .map [(.str "by", .map [(.str "a.b", .int 7)])]

def dottedRows : Value := .map [(.str "rows", .seq [dottedRow])]

/-- A path into a row, and a path on from there whose key holds a dot. -/
theorem dottedRows_compose :
    (parse "rows[ 0 ]" ≠ [] ∧ parse "by['a.b']" ≠ [] ∧ Closed "rows[ 0 ]".toList) ∧
      (Accessor.ofValue dottedRows).read ("rows[ 0 ]" ++ "." ++ "by['a.b']") = some (.int 7) := by
  have hps : parse "rows[ 0 ]" = [.name "rows", .index 0] := by decide +kernel
  have hqs : parse "by['a.b']" = [.name "by", .key "a.b"] := by decide +kernel
  have hp : parse "rows[ 0 ]" ≠ [] := by rw [hps]; exact List.cons_ne_nil _ _
  have hq : parse "by['a.b']" ≠ [] := by rw [hqs]; exact List.cons_ne_nil _ _
  have hc : Closed "rows[ 0 ]".toList :=
    .outside (by decide) (.outside (by decide) (.outside (by decide) (.outside (by decide)
      (@Closed.brackets [' ', '0', ' '] [] (by decide) .nil))))
  have hrow : Accessor.readPath dottedRows "rows[ 0 ]" = some dottedRow := by
    rw [Accessor.readPath_eq hp, hps]
    rfl
  have hvalue : Accessor.readPath dottedRow "by['a.b']" = some (.int 7) := by
    rw [Accessor.readPath_eq hq, hqs]
    rfl
  refine ⟨⟨hp, hq, hc⟩, ((reads_compose hp hq hc).1 dottedRows).trans ?_⟩
  simp only [Accessor.ofValue, hrow, Option.bind_some, hvalue]

end Path

end SqlTemplate
