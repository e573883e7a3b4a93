import SqlTemplate.Template

/-!
# Laws of entries and of element names

* `Entries.set`, `Entries.erase`: what they leave alone, and in which order they may be done;
* `Entries.put`, `Entries.restore`: what a loop does with its variables;
* `elementName_inj`: two elements never share a name, whatever digits and underscores the
  variables hold;
* `Entries.kept`, `Entries.elements`: the entries that a render may not change, and those that it
  writes for the elements of its loops;
* `Bindings.exposed?`: what a substitution puts under the alias of the parameter.
-/

namespace SqlTemplate

/-! ## 1. Writing and reading -/

namespace Entries

@[simp] theorem get?_nil (n : String) : get? n [] = none := rfl

theorem get?_cons (n m : String) (v : Value) (es : Entries) :
    get? n ((m, v) :: es) = if m = n then some v else get? n es := rfl

@[simp] theorem get?_set_self (n : String) (v : Value) (es : Entries) :
    get? n (set n v es) = some v := by
  induction es with
  | nil => simp only [set, get?_cons, ↓reduceIte]
  | cons e es ih =>
    obtain ⟨m, w⟩ := e
    unfold set
    by_cases h : m = n
    · rw [if_pos h, get?_cons, if_pos h]
    · rw [if_neg h, get?_cons, if_neg h, ih]

theorem get?_set_of_ne {n m : String} (h : m ≠ n) (v : Value) (es : Entries) :
    get? n (set m v es) = get? n es := by
  induction es with
  | nil => rw [set, get?_cons, if_neg h]
  | cons e es ih =>
    obtain ⟨k, w⟩ := e
    unfold set
    by_cases hk : k = m
    · have hkn : k ≠ n := fun e => h (hk ▸ e)
      rw [if_pos hk, get?_cons, get?_cons, if_neg hkn, if_neg hkn]
    · rw [if_neg hk, get?_cons, get?_cons, ih]

theorem get?_erase_of_ne {n m : String} (h : m ≠ n) (es : Entries) :
    get? n (erase m es) = get? n es := by
  induction es with
  | nil => rfl
  | cons e es ih =>
    obtain ⟨k, w⟩ := e
    unfold erase
    by_cases hk : k = m
    · have hkn : k ≠ n := fun e => h (hk ▸ e)
      rw [if_pos hk, get?_cons, if_neg hkn]
    · rw [if_neg hk, get?_cons, get?_cons, ih]

/-- Writing what is there changes nothing. -/
theorem set_of_get? {n : String} {v : Value} {es : Entries} (h : get? n es = some v) :
    set n v es = es := by
  induction es with
  | nil => cases h
  | cons e es ih =>
    obtain ⟨m, w⟩ := e
    rw [get?_cons] at h
    unfold set
    by_cases hm : m = n
    · rw [if_pos hm] at h
      cases h
      rw [if_pos hm, hm]
    · rw [if_neg hm] at h
      rw [if_neg hm, ih h]

/-- Taking out what is not there changes nothing. -/
theorem erase_of_get? {n : String} {es : Entries} (h : get? n es = none) : erase n es = es := by
  induction es with
  | nil => rfl
  | cons e es ih =>
    obtain ⟨m, w⟩ := e
    rw [get?_cons] at h
    unfold erase
    by_cases hm : m = n
    · rw [if_pos hm] at h
      cases h
    · rw [if_neg hm] at h
      rw [if_neg hm, ih h]

theorem set_set (n : String) (v w : Value) (es : Entries) :
    set n w (set n v es) = set n w es := by
  induction es with
  | nil => simp only [set, ↓reduceIte]
  | cons e es ih =>
    obtain ⟨m, u⟩ := e
    by_cases hm : m = n
    · simp only [set, hm, ↓reduceIte]
    · simp only [set, hm, ↓reduceIte, ih]

theorem erase_set (n : String) (v : Value) (es : Entries) : erase n (set n v es) = erase n es := by
  induction es with
  | nil => simp only [set, erase, ↓reduceIte]
  | cons e es ih =>
    obtain ⟨m, u⟩ := e
    by_cases hm : m = n
    · simp only [set, erase, hm, ↓reduceIte]
    · simp only [set, erase, hm, ↓reduceIte, ih]

/-- Two names may be written in either order when the first one has its place already. -/
theorem set_set_comm {n m : String} (h : m ≠ n) (v w : Value) {es : Entries}
    (hn : (get? n es).isSome) : set n v (set m w es) = set m w (set n v es) := by
  induction es with
  | nil => cases hn
  | cons e es ih =>
    obtain ⟨k, u⟩ := e
    by_cases hk : k = n
    · have hnm : n ≠ m := fun e => h e.symm
      simp only [set, hk, hnm, ↓reduceIte]
    · rw [get?_cons, if_neg hk] at hn
      by_cases hm : k = m
      · simp only [set, hm, h, ↓reduceIte]
      · simp only [set, hk, hm, ↓reduceIte, ih hn]

/-- The names with an entry after a write. -/
theorem mem_names_set {n m : String} {v : Value} {es : Entries}
    (h : n ∈ (set m v es).map Prod.fst) : n = m ∨ n ∈ es.map Prod.fst := by
  induction es with
  | nil =>
    simp only [set, List.map_cons, List.map_nil, List.mem_singleton] at h
    exact .inl h
  | cons e es ih =>
    obtain ⟨k, u⟩ := e
    unfold set at h
    by_cases hk : k = m
    · rw [if_pos hk] at h
      exact .inr h
    · rw [if_neg hk, List.map_cons, List.mem_cons] at h
      rcases h with h | h
      · exact .inr (List.mem_cons.mpr (.inl h))
      · rcases ih h with h | h
        · exact .inl h
        · exact .inr (List.mem_cons_of_mem _ h)

/-! ## 2. Names that there may be -/

/-- Writes a value under a name, if there is one. -/
def put (name : Option String) (v : Value) (es : Entries) : Entries :=
  match name with
  | some n => set n v es
  | none => es

/-- What stands under a name, if there is one. -/
def shadowed (name : Option String) (es : Entries) : Option Value :=
  match name with
  | some n => get? n es
  | none => none

/-- Gives a name back what it stood for, if there is a name. -/
def restore (name : Option String) (before : Option Value) (es : Entries) : Entries :=
  match name, before with
  | some n, some v => set n v es
  | some n, none => erase n es
  | none, _ => es

theorem restore_shadowed (name : Option String) (es : Entries) :
    restore name (shadowed name es) es = es := by
  cases name with
  | none => rfl
  | some n =>
    cases h : get? n es with
    | none =>
      simp only [shadowed, h, restore]
      exact erase_of_get? h
    | some v =>
      simp only [shadowed, h, restore]
      exact set_of_get? h

/-- What has been written under a name is gone once the name is given back. -/
theorem restore_put (name : Option String) (before : Option Value) (v : Value) (es : Entries) :
    restore name before (put name v es) = restore name before es := by
  cases name with
  | none => rfl
  | some n =>
    cases before with
    | none => exact erase_set n v es
    | some w => exact set_set n v w es

theorem get?_put_of_ne {name : Option String} {n : String} (h : name ≠ some n) (v : Value)
    (es : Entries) : get? n (put name v es) = get? n es := by
  cases name with
  | none => rfl
  | some m => exact get?_set_of_ne (fun e => h (congrArg some e)) v es

theorem put_put (name : Option String) (v w : Value) (es : Entries) :
    put name w (put name v es) = put name w es := by
  cases name with
  | none => rfl
  | some n => exact set_set n v w es

/-- Two names written again keep the places that they have. -/
theorem put_put_put_put (item index : Option String) (v v' k k' : Value) (es : Entries) :
    put item v' (put index k' (put item v (put index k es))) = put item v' (put index k' es) := by
  cases item with
  | none => exact put_put index k k' es
  | some n =>
    cases index with
    | none => exact set_set n v v' es
    | some m =>
      by_cases h : n = m
      · subst h
        simp only [put, set_set]
      · have hm : (get? m (set m k es)).isSome := by rw [get?_set_self]; rfl
        simp only [put]
        rw [set_set_comm h k' v hm, set_set, set_set]

/-- Two names that have been written are given back what they stood for. -/
theorem restore_restore_put_put (item index : Option String) (v k : Value) (es : Entries) :
    restore index (shadowed index es)
      (restore item (shadowed item es) (put item v (put index k es))) = es := by
  by_cases h : item = index
  · subst h
    rw [put_put, restore_put, restore_shadowed, restore_shadowed]
  · have hi : shadowed item es = shadowed item (put index k es) := by
      cases item with
      | none => rfl
      | some n =>
        cases index with
        | none => rfl
        | some m => exact (get?_set_of_ne (fun e => h (congrArg some e.symm)) k es).symm
    rw [hi, restore_put, restore_shadowed, restore_put, restore_shadowed]

/-! ## 3. Some of the entries -/

section Filter

variable (p : String → Bool)

/-- The entries under the names that satisfy `p`. -/
def only (es : Entries) : Entries := es.filter fun e => p e.1

theorem only_cons (m : String) (v : Value) (es : Entries) :
    only p ((m, v) :: es) = if p m = true then (m, v) :: only p es else only p es :=
  List.filter_cons

theorem get?_only {n : String} (hn : p n = true) (es : Entries) :
    get? n (only p es) = get? n es := by
  induction es with
  | nil => rfl
  | cons e es ih =>
    obtain ⟨m, v⟩ := e
    rw [only_cons]
    by_cases hm : m = n
    · rw [hm, if_pos hn, get?_cons, get?_cons, if_pos rfl, if_pos rfl]
    · by_cases hp : p m = true
      · rw [if_pos hp, get?_cons, get?_cons, if_neg hm, if_neg hm, ih]
      · rw [if_neg hp, get?_cons, if_neg hm, ih]

theorem only_set {n : String} (hn : p n = true) (v : Value) (es : Entries) :
    only p (set n v es) = set n v (only p es) := by
  induction es with
  | nil => rw [set, only_cons, if_pos hn]; rfl
  | cons e es ih =>
    obtain ⟨m, w⟩ := e
    by_cases hm : m = n
    · subst hm
      simp only [set, only_cons, hn, ↓reduceIte]
    · by_cases hp : p m = true
      · simp only [set, only_cons, hm, hp, ↓reduceIte, ih]
      · simp only [set, only_cons, hm, hp, ↓reduceIte, ih]
        rfl

theorem only_set_other {n : String} (hn : p n = false) (v : Value) (es : Entries) :
    only p (set n v es) = only p es := by
  induction es with
  | nil => rw [set, only_cons, hn]; rfl
  | cons e es ih =>
    obtain ⟨m, w⟩ := e
    by_cases hm : m = n
    · subst hm
      simp only [set, only_cons, hn, ↓reduceIte]
      rfl
    · simp only [set, only_cons, hm, ↓reduceIte, ih]

theorem only_erase {n : String} (hn : p n = true) (es : Entries) :
    only p (erase n es) = erase n (only p es) := by
  induction es with
  | nil => rfl
  | cons e es ih =>
    obtain ⟨m, w⟩ := e
    by_cases hm : m = n
    · subst hm
      simp only [erase, only_cons, hn, ↓reduceIte]
    · by_cases hp : p m = true
      · simp only [erase, only_cons, hm, hp, ↓reduceIte, ih]
      · simp only [erase, only_cons, hm, hp, ↓reduceIte, ih]
        rfl

theorem only_erase_other {n : String} (hn : p n = false) (es : Entries) :
    only p (erase n es) = only p es := by
  induction es with
  | nil => rfl
  | cons e es ih =>
    obtain ⟨m, w⟩ := e
    by_cases hm : m = n
    · subst hm
      simp only [erase, only_cons, hn, ↓reduceIte]
      rfl
    · simp only [erase, only_cons, hm, ↓reduceIte, ih]

theorem only_put (name : Option String) (v : Value) (es : Entries) :
    only p (put name v es) = put (name.filter p) v (only p es) := by
  cases name with
  | none => rfl
  | some n =>
    cases hn : p n with
    | true => simp only [put, Option.filter, hn, ↓reduceIte, only_set p hn]
    | false => simp only [put, Option.filter, hn, only_set_other p hn]; rfl

theorem only_restore (name : Option String) (start es : Entries) :
    only p (restore name (shadowed name start) es) =
      restore (name.filter p) (shadowed (name.filter p) (only p start)) (only p es) := by
  cases name with
  | none => rfl
  | some n =>
    cases hn : p n with
    | true =>
      simp only [Option.filter, hn, ↓reduceIte, shadowed, get?_only p hn]
      cases get? n start with
      | none => exact only_erase p hn es
      | some v => exact only_set p hn v es
    | false =>
      simp only [Option.filter, hn]
      cases shadowed (some n) start with
      | none => exact only_erase_other p hn es
      | some v => exact only_set_other p hn v es

theorem mem_names_only {n : String} {es : Entries} :
    n ∈ (only p es).map Prod.fst ↔ n ∈ es.map Prod.fst ∧ p n = true := by
  simp only [only, List.mem_map, List.mem_filter]
  constructor
  · rintro ⟨e, ⟨he, hp⟩, rfl⟩
    exact ⟨⟨e, he, rfl⟩, hp⟩
  · rintro ⟨⟨e, he, rfl⟩, hp⟩
    exact ⟨e, ⟨he, hp⟩, rfl⟩

end Filter

end Entries

/-! ## 4. Names of elements -/

/-- Whether a name begins like the name of an element. -/
def isElementName (name : String) : Bool := elementPrefix.toList.isPrefixOf name.toList

theorem elementName_toList (name : String) (suffix : Nat) :
    (elementName name suffix).toList =
      elementPrefix.toList ++ (name.toList ++ '_' :: Nat.toDigits 10 suffix) := by
  have hd : (toString suffix).toList = Nat.toDigits 10 suffix := Nat.toList_repr
  simp only [elementName, String.toList_append, hd, List.append_assoc]
  rfl

@[simp] theorem isElementName_elementName (name : String) (suffix : Nat) :
    isElementName (elementName name suffix) = true := by
  rw [isElementName, elementName_toList, List.isPrefixOf_iff_prefix]
  exact List.prefix_append _ _

/-- The last underscore of two texts that end in digits parts them in the same way. -/
theorem split_last {c : Char} {xs ys ds es : List Char} (hd : c ∉ ds) (he : c ∉ es)
    (h : xs ++ c :: ds = ys ++ c :: es) : xs = ys ∧ ds = es := by
  rcases List.append_eq_append_iff.mp h with ⟨m, rfl, h2⟩ | ⟨m, rfl, h2⟩
  · cases m with
    | nil => exact ⟨by simp, (List.cons.inj h2).2⟩
    | cons a m =>
      have hm : ds = m ++ c :: es := (List.cons.inj h2).2
      exact absurd (hm ▸ List.mem_append_right _ List.mem_cons_self) hd
  · cases m with
    | nil => exact ⟨by simp, (List.cons.inj h2).2.symm⟩
    | cons a m =>
      have hm : es = m ++ c :: ds := (List.cons.inj h2).2
      exact absurd (hm ▸ List.mem_append_right _ List.mem_cons_self) he

/-- **The name of an element tells the variable and the number**, also when the variable ends in an
    underscore and digits of its own. -/
theorem elementName_inj {n m : String} {j k : Nat} (h : elementName n j = elementName m k) :
    n = m ∧ j = k := by
  have hl := congrArg String.toList h
  rw [elementName_toList, elementName_toList, List.append_cancel_left_eq] at hl
  obtain ⟨hn, hd⟩ :=
    split_last Nat.underscore_not_in_toDigits Nat.underscore_not_in_toDigits hl
  refine ⟨String.toList_inj.mp hn, ?_⟩
  rw [← Nat.ofDigitChars_ten_toDigits (n := j), hd, Nat.ofDigitChars_ten_toDigits]

/-! ## 5. What belongs to a render -/

/-- The names that a render writes for itself: the alias of a scalar parameter and the names of
    elements. -/
def isScratch (name : String) : Bool := name == Literal.valueName || isElementName name

/-- Whether a name does not belong to a render. -/
def isKept (name : String) : Bool := !isScratch name

/-- The entries that do not belong to a render. -/
def Entries.kept (es : Entries) : Entries := es.only isKept

/-- The entries under names of elements. -/
def Entries.elements (es : Entries) : Entries := es.only isElementName

@[simp] theorem isKept_valueName : isKept Literal.valueName = false := rfl

@[simp] theorem isElementName_valueName : isElementName Literal.valueName = false := by
  decide +kernel

@[simp] theorem isKept_elementName (name : String) (suffix : Nat) :
    isKept (elementName name suffix) = false := by
  rw [isKept, isScratch, isElementName_elementName, Bool.or_true, Bool.not_true]

/-! ## 6. The alias of the parameter -/

/-- What a substitution puts under the alias of the parameter: a scalar parameter, or null for a
    missing one. -/
def Bindings.exposed? (b : Bindings) : Option Value :=
  let parameter := (b.getOwn? parameterName).getD .null
  if parameter.isAbsent then some .null
  else if (ParamType.of parameter).isScalar then some parameter
  else none

namespace Literal

theorem exposeParameter_eq (s : Scope) :
    exposeParameter s = (s.bindings.exposed?.map fun v => s.bind valueName v).getD s := by
  unfold exposeParameter Bindings.exposed?
  by_cases ha : ((s.bindings.getOwn? Bindings.parameterName).getD .null).isAbsent = true
  · simp only [ha, ↓reduceIte, Option.map_some, Option.getD_some]
  · by_cases hs :
        (ParamType.of ((s.bindings.getOwn? Bindings.parameterName).getD .null)).isScalar = true
    · simp only [ha, hs, ↓reduceIte]
      rfl
    · simp only [ha, hs]
      rfl

theorem exposeParameter_some {s : Scope} {v : Value} (h : s.bindings.exposed? = some v) :
    exposeParameter s = s.bind valueName v := by
  rw [exposeParameter_eq, h]
  rfl

theorem exposeParameter_none {s : Scope} (h : s.bindings.exposed? = none) : exposeParameter s = s := by
  rw [exposeParameter_eq, h]
  rfl

/-- The alias does not stand for the parameter itself. -/
theorem exposed?_exposeParameter (s : Scope) :
    (exposeParameter s).bindings.exposed? = s.bindings.exposed? := by
  cases h : s.bindings.exposed? with
  | none => rw [exposeParameter_none h, h]
  | some v =>
    rw [exposeParameter_some h, ← h]
    have hget : (s.bindings.insert valueName v).getOwn? Bindings.parameterName =
        s.bindings.getOwn? Bindings.parameterName :=
      Entries.get?_set_of_ne (by decide) v s.bindings.entries
    unfold Bindings.exposed?
    rw [show (s.bind valueName v).bindings = s.bindings.insert valueName v from rfl, hget]

end Literal

end SqlTemplate
