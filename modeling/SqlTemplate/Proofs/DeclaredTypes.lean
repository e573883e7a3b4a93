import SqlTemplate.Proofs.DeferredBinding
import SqlTemplate.Proofs.PlaceholderMarkers

/-!
# Declared types and bound values

The type of a marker is inferred when its placeholder is finalized, and its value is read when it is
bound. Two questions are asked of the same bindings, in a different order each.

* `Bindings.Change`: what may happen to bindings after they were made;
* `Source.IsFaithful`: a parameter that declares the type of what it answers;
* `Marker.inferredType_agrees`: the inferred type is that of the value, or any, and when it is any;
* `Bindings.declared_agrees`: the same for every content without a declared type and for all
  bindings of a parameter, whatever has been written to them and taken out of them.
-/

namespace SqlTemplate

open Text (AllBlank)

/-! ## 1. Changes -/

namespace Bindings

/-- A change of the entries. -/
inductive Change where
  | insert (name : String) (value : Value)
  | remove (name : String)

/-- The bindings after a change. -/
def change (b : Bindings) : Change → Bindings
  | .insert name value => b.insert name value
  | .remove name => b.remove name

/-- The bindings after changes, the first one first. -/
def changeAll (b : Bindings) (changes : List Change) : Bindings := changes.foldl change b

theorem change_source (b : Bindings) (c : Change) : (b.change c).source = b.source := by
  cases c with
  | insert name value => rfl
  | remove name => rfl

/-- No change reaches the parameter behind the entries. -/
theorem changeAll_source (b : Bindings) (changes : List Change) :
    (b.changeAll changes).source = b.source := by
  induction changes generalizing b with
  | nil => rfl
  | cons c changes ih =>
    show ((b.change c).changeAll changes).source = b.source
    rw [ih, change_source]

end Bindings

/-! ## 2. Parameters that declare what they answer -/

/-- Whether a parameter declares for every path the type of what it answers there. -/
def Source.IsFaithful (s : Source) : Prop :=
  ∀ path, s.typeOf path = match s.read? path with
    | some v => .of v
    | none => .any

theorem Source.absent_faithful : Source.absent.IsFaithful := fun _ => rfl

theorem Source.scalar_faithful (v : Value) : (Source.scalar v).IsFaithful := fun _ => rfl

theorem Source.mapping_faithful (root : Value) : (Source.mapping (.ofValue root)).IsFaithful :=
  fun _ => rfl

theorem Source.structured_faithful (root : Value) :
    (Source.structured (.ofValue root)).IsFaithful := fun _ => rfl

/-- A parameter that is read by paths into its value declares what it answers. -/
theorem Bindings.seed_faithful (parameter : Value) : (Bindings.seed none parameter).2.IsFaithful := by
  cases parameter with
  | undefined => exact Source.absent_faithful
  | null => exact Source.absent_faithful
  | bool b => exact Source.scalar_faithful _
  | int n => exact Source.scalar_faithful _
  | float x => exact Source.scalar_faithful _
  | str s => exact Source.scalar_faithful _
  | bytes bs => exact Source.scalar_faithful _
  | seq items => exact Source.mapping_faithful _
  | iter items => exact Source.mapping_faithful _
  | map entries => exact Source.mapping_faithful _
  | object attrs => exact Source.structured_faithful _

/-- **Bindings of a parameter stay faithful** whatever is written to them and taken out of them. -/
theorem Bindings.changeAll_faithful (parameter : Value) (database : Option String)
    (changes : List Bindings.Change) :
    ((Bindings.forParameter parameter none database).changeAll changes).source.IsFaithful := by
  rw [Bindings.changeAll_source]
  exact Bindings.seed_faithful parameter

/-! ## 3. Reading -/

namespace Bindings

variable {b : Bindings} {path : String}

/-- What can be read from the entries is what a path gives. -/
theorem readNow_of_own {v : Value} (h : b.readOwn? path = some v) : b.readNow path = v := by
  cases hroot : rootName? path with
  | none =>
    rw [readOwn?_unnamed hroot] at h
    cases h
  | some root =>
    obtain ⟨rest, hparse⟩ := parse_of_rootName? hroot
    rw [readOwn?_name hparse] at h
    rw [readNow_name hparse]
    obtain ⟨w, hw, hread⟩ := Option.bind_eq_some_iff.mp h
    rw [hw]
    exact congrArg (Option.getD · .null) hread

/-- What cannot be read from the entries, and is not missing, comes from the parameter. -/
theorem readNow_of_behind (h : b.readOwn? path = none) (hv : (b.readNow path).isAbsent = false) :
    b.readNow path = b.readBehind path := by
  cases hroot : rootName? path with
  | none => exact readNow_unnamed hroot b
  | some root =>
    obtain ⟨rest, hparse⟩ := parse_of_rootName? hroot
    rw [readOwn?_name hparse] at h
    rw [readNow_name hparse] at hv ⊢
    cases hg : b.entries.get? root with
    | none => rfl
    | some w =>
      -- the entry does not have the path inside, so that the value would be missing
      have hread : Path.read? w rest = none := by
        rw [hg] at h
        exact h
      rw [hg] at hv
      simp only [hread] at hv
      cases hv

/-- A structured parameter declares the type of what it answers. -/
theorem parameterType_behind (hf : b.source.IsFaithful) (hs : b.shape = .structured)
    (hv : (b.readBehind path).isAbsent = false) :
    b.parameterType path = .of (b.readBehind path) := by
  unfold readBehind at hv ⊢
  rw [hs] at hv ⊢
  unfold parameterType readParameter? at *
  rw [hf path]
  cases hr : b.source.read? path with
  | none =>
    rw [hr] at hv
    cases hv
  | some v => rfl

end Bindings

/-! ## 4. Inferred types -/

namespace Marker

/-- **The inferred type is that of the value.** It is any only where the value comes from a mapping,
    or from a parameter in place of a cursor. -/
theorem inferredType_agrees {m : Marker} {b : Bindings} (hf : b.source.IsFaithful)
    (hp : m.property ≠ "") (hv : (b.readNow m.property).isAbsent = false) :
    m.inferredType b = .of (b.readNow m.property) ∨
      (m.inferredType b = .any ∧ b.readOwn? m.property = none ∧
        (b.shape = .mapping ∨ m.jdbcType = some cursorType)) := by
  have hempty : m.property.isEmpty = false := by
    cases he : m.property.isEmpty with
    | false => rfl
    | true => exact absurd (String.isEmpty_iff.mp he) hp
  unfold inferredType
  simp only [hempty, Bool.false_eq_true, ↓reduceIte, false_or]
  cases hown : b.readOwn? m.property with
  | some v =>
    rw [Bindings.readNow_of_own hown]
    exact .inl rfl
  | none =>
    have hbehind := Bindings.readNow_of_behind hown hv
    rw [hbehind] at hv ⊢
    dsimp only
    cases hs : b.shape with
    | absent =>
      unfold Bindings.readBehind at hv
      rw [hs] at hv
      cases hv
    | scalar =>
      have hr : b.readBehind m.property = b.parameter := by
        unfold Bindings.readBehind
        rw [hs]
      rw [if_pos rfl, hr]
      exact .inl rfl
    | mapping =>
      rw [if_neg (by decide), if_pos (.inr rfl)]
      exact .inr ⟨rfl, rfl, .inl rfl⟩
    | structured =>
      rw [if_neg (by decide)]
      by_cases hc : m.jdbcType = some cursorType
      · rw [if_pos (.inl hc)]
        exact .inr ⟨rfl, rfl, .inr hc⟩
      · rw [if_neg (by rintro (h | h); exacts [hc h, absurd h (by decide)])]
        exact .inl (Bindings.parameterType_behind hf hs hv)

end Marker

/-! ## 5. Contents without a declared type -/

theorem given_of_forall_ne {α : Type} {key : String} {options : List (String × String)}
    (h : ∀ option ∈ options, option.1 ≠ key) (absent : α) (read : String → α) :
    given key absent read options = absent := by
  induction options with
  | nil => rfl
  | cons option options ih =>
    rw [given_cons, if_neg (Ne.symm (h option List.mem_cons_self))]
    exact ih fun o hm => h o (List.mem_cons_of_mem _ hm)

namespace Placeholder

/-- A placeholder for a property that leaves the type to the bindings. -/
structure IsUndeclared (p : Placeholder) (path : String) : Prop where
  target : p.target = .property path
  options : ∀ option ∈ p.options, option.1 ≠ "javaType"

/-- The path of a content is not empty. -/
theorem path_ne {content : List Char} {p : Placeholder} {path : String} (h : Says content p)
    (ht : p.target = .property path) : path ≠ "" := by
  cases h with
  | content _ htarget _ _ =>
    rw [ht] at htarget
    cases htarget with
    | property _ _ _ hshown =>
      intro he
      have hnil : Text.trim _ = [] := String.ofList_eq_empty_iff.mp he
      exact hshown (Text.trim_eq_nil_iff.mp hnil)

theorem marker_undeclared {p : Placeholder} {path : String} (h : p.IsUndeclared path)
    (b : Bindings) : (p.marker b).property = path ∧ (p.marker b).expression = none ∧
      (p.marker b).valueType = (p.marker b).inferredType b := by
  obtain ⟨target, jdbcType, options⟩ := p
  obtain ⟨ht, ho⟩ := h
  cases ht
  refine ⟨rfl, rfl, ?_⟩
  have hg := given_of_forall_ne ho none fun v => (ParamType.read v).toOption
  show Option.getD (given "javaType" none (fun v => (ParamType.read v).toOption) options) _ = _
  rw [hg]
  rfl

end Placeholder

/-- **Declared types agree with bound values.** For the bindings of any parameter, whatever has been
    written to them and taken out of them, and for every content that asks for a property and
    declares no type: the marker has a value, and its type is the type of the value unless the value
    is missing, or unless it is any. It is any only for what a mapping holds and for cursors. -/
theorem Bindings.declared_agrees (parameter : Value) (database : Option String)
    (changes : List Bindings.Change) (engine : Engine) {content : List Char} {p : Placeholder}
    {path : String} {m : Marker} (hs : Placeholder.Says content p) (hp : p.IsUndeclared path)
    (hm : Marker.ofContent content
      ((Bindings.forParameter parameter none database).changeAll changes) = .ok m) :
    let b := (Bindings.forParameter parameter none database).changeAll changes
    ∃ v, m.resolve b engine = .ok v ∧ (v.isAbsent = false →
      m.valueType = .of v ∨ (m.valueType = .any ∧ b.readOwn? path = none ∧
        (b.shape = .mapping ∨ m.jdbcType = some Marker.cursorType))) := by
  intro b
  obtain ⟨q, hq, -, rfl⟩ := Marker.ofContent_ok.mp hm
  obtain rfl := hs.unique hq
  obtain ⟨hproperty, hexpression, htype⟩ := Placeholder.marker_undeclared hp b
  refine ⟨b.readNow path, ?_, fun hv => ?_⟩
  · rw [Marker.resolve_property hexpression, hproperty]
  · have hne : (p.marker b).property ≠ "" := hproperty ▸ Placeholder.path_ne hs hp.target
    have hagree := Marker.inferredType_agrees (b := b)
      (Bindings.changeAll_faithful parameter database changes) hne (hproperty.symm ▸ hv)
    rw [hproperty] at hagree
    rw [htype]
    exact hagree

/-- A structured parameter with an entry written over one of its names. -/
def changedOrder : Bindings :=
  (Bindings.forParameter (.object [("id", .int 7), ("name", .str "ab")]) none none).changeAll
    [.insert "x" (.str "y"), .remove Bindings.databaseName, .insert "id" .null, .remove "id"]

/-- A content that asks for a property of the parameter, and what it says. -/
def idContent : List Char := " id : NUM, mode = IN".toList

def idPlaceholder : Placeholder where
  target := .property "id"
  jdbcType := some "NUM"
  options := [("mode", "IN")]

/-- The marker of the content. -/
def idMarker : Marker where
  property := "id"
  jdbcType := some "NUM"
  valueType := .integer

theorem declared_agrees_order : Placeholder.Says idContent idPlaceholder ∧
    Marker.ofContent idContent changedOrder = .ok idMarker ∧
      idMarker.resolve changedOrder .names = .ok (.int 7) ∧ idMarker.valueType = .of (.int 7) := by
  have hs : Placeholder.Says idContent idPlaceholder :=
    Placeholder.says_of_parse (by decide +kernel)
  have hp : idPlaceholder.IsUndeclared "id" := ⟨rfl, by decide⟩
  have hm : Marker.ofContent idContent changedOrder = .ok idMarker := by decide +kernel
  obtain ⟨v, hv, htype⟩ := Bindings.declared_agrees (.object [("id", .int 7), ("name", .str "ab")])
    none [.insert "x" (.str "y"), .remove Bindings.databaseName, .insert "id" .null, .remove "id"]
    .names hs hp hm
  have hint : idMarker.resolve changedOrder .names = .ok (.int 7) := by rfl
  obtain rfl : v = .int 7 := Except.ok.inj (hv.symm.trans hint)
  refine ⟨hs, hm, hint, ?_⟩
  rcases htype rfl with h | ⟨h, -⟩
  · exact h
  · cases h

end SqlTemplate
