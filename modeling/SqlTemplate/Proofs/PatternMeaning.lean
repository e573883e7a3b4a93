import Mathlib.Data.List.Nodup
import Mathlib.Data.List.Perm.Subperm
import Mathlib.Data.List.Range
import SqlTemplate.Pattern.Common
import SqlTemplate.Pattern.Match

/-!
# What patterns match

The meaning of a regular expression as a relation between two places of a text, and the matcher of
the common dialect measured by it.

* `Regex.Spans`: an expression matches the part of a text between two places;
* `Regex.Matches`, `Regex.Occurs`: an expression matches a text in full, or some part of it;
* `mem_steps_between`, `mem_steps_from`: repetitions, with a bound and without one, although the
  matcher gives up after as many rounds as there are places;
* `Regex.mem_ends`: the matcher finds the places that the relation names, and no others;
* `Regex.isMatch_iff`: the matcher finds out whether an expression matches some part of a text.
-/

namespace SqlTemplate.Pattern

/-! ## 1. Meaning -/

/-- Two places with `n` steps between them. -/
def Steps (step : Nat → Nat → Prop) : Nat → Nat → Nat → Prop
  | 0, i, j => i = j
  | n + 1, i, j => ∃ k, step i k ∧ Steps step n k j

theorem steps_add {step : Nat → Nat → Prop} {m n i j : Nat} :
    Steps step (m + n) i j ↔ ∃ k, Steps step m i k ∧ Steps step n k j := by
  induction m generalizing i with
  | zero => simp [Steps]
  | succ m ih =>
    rw [Nat.succ_add]
    simp only [Steps, ih]
    constructor
    · rintro ⟨l, hl, k, hk, hj⟩
      exact ⟨k, ⟨l, hl, hk⟩, hj⟩
    · rintro ⟨k, ⟨l, hl, hk⟩, hj⟩
      exact ⟨l, hl, k, hk, hj⟩

/-- Steps may be replaced by others that lead to the same places below `size`. -/
theorem steps_congr {step step' : Nat → Nat → Prop} {size n i j : Nat}
    (h : ∀ i < size, ∀ j, step i j ↔ step' i j) (hlt : ∀ i < size, ∀ j, step i j → j < size)
    (hi : i < size) : Steps step n i j ↔ Steps step' n i j := by
  induction n generalizing i with
  | zero => exact Iff.rfl
  | succ n ih =>
    constructor
    · rintro ⟨k, hk, hs⟩
      exact ⟨k, (h i hi k).mp hk, (ih (hlt i hi k hk)).mp hs⟩
    · rintro ⟨k, hk, hs⟩
      have hk := (h i hi k).mpr hk
      exact ⟨k, hk, (ih (hlt i hi k hk)).mpr hs⟩

theorem steps_lt {step : Nat → Nat → Prop} {size n i j : Nat}
    (hlt : ∀ i < size, ∀ j, step i j → j < size) (hi : i < size) (hs : Steps step n i j) :
    j < size := by
  induction n generalizing i with
  | zero => exact hs ▸ hi
  | succ n ih =>
    obtain ⟨k, hk, hs⟩ := hs
    exact ih (hlt i hi k hk) hs

namespace Regex

variable {Atom : Type}

/-- Whether an expression matches the part of a text from place `i` to place `j`. The bounds of a
    repetition that has been written are in order; one that is not has its lower bound alone. -/
def Spans (atoms : Atom → List Char → Nat → Nat → Prop) (text : List Char) :
    Regex Atom → Nat → Nat → Prop
  | .empty, i, j => i = j
  | .atom a, i, j => atoms a text i j
  | .both first second, i, j => ∃ k, Spans atoms text first i k ∧ Spans atoms text second k j
  | .either left right, i, j => Spans atoms text left i j ∨ Spans atoms text right i j
  | .repeated least most r, i, j =>
    ∃ n, least ≤ n ∧ (∀ m ∈ most, n ≤ max least m) ∧ Steps (Spans atoms text r) n i j

/-- Whether an expression matches the whole of a text. -/
def Matches (atoms : Atom → List Char → Nat → Nat → Prop) (r : Regex Atom) (text : List Char) :
    Prop :=
  Spans atoms text r 0 text.length

/-- Whether an expression matches some part of a text. -/
def Occurs (atoms : Atom → List Char → Nat → Nat → Prop) (r : Regex Atom) (text : List Char) :
    Prop :=
  ∃ i j, i ≤ text.length ∧ Spans atoms text r i j

end Regex

/-! ## 2. Sets of places -/

section Places

variable {step : Nat → List Nat} {places as bs : List Nat} {i j n : Nat}

/-- The places that the matcher steps to, as a relation. -/
def Leads (step : Nat → List Nat) (i j : Nat) : Prop := j ∈ step i

theorem joinPlaces_cons (as : List Nat) (b : Nat) (bs : List Nat) :
    joinPlaces as (b :: bs) = joinPlaces (if as.contains b then as else as ++ [b]) bs := rfl

theorem mem_joinPlaces : j ∈ joinPlaces as bs ↔ j ∈ as ∨ j ∈ bs := by
  induction bs generalizing as with
  | nil => exact (or_iff_left List.not_mem_nil).symm
  | cons b bs ih =>
    rw [joinPlaces_cons, ih]
    by_cases hb : b ∈ as
    · rw [if_pos (List.contains_iff_mem.mpr hb), List.mem_cons, ← or_assoc]
      refine or_congr_left (or_iff_left_of_imp ?_).symm
      rintro rfl
      exact hb
    · rw [if_neg (mt List.contains_iff_mem.mp hb), List.mem_append, List.mem_singleton,
        List.mem_cons, or_assoc]

theorem nodup_joinPlaces (h : as.Nodup) (bs : List Nat) : (joinPlaces as bs).Nodup := by
  induction bs generalizing as with
  | nil => exact h
  | cons b bs ih =>
    rw [joinPlaces_cons]
    by_cases hb : b ∈ as
    · rw [if_pos (List.contains_iff_mem.mpr hb)]
      exact ih h
    · rw [if_neg (mt List.contains_iff_mem.mp hb)]
      refine ih (List.nodup_append.mpr ⟨h, List.nodup_singleton b, ?_⟩)
      intro a ha c hc
      rw [List.mem_singleton.mp hc]
      rintro rfl
      exact hb ha

theorem length_le_joinPlaces (as bs : List Nat) : as.length ≤ (joinPlaces as bs).length := by
  induction bs generalizing as with
  | nil => exact Nat.le_refl _
  | cons b bs ih =>
    rw [joinPlaces_cons]
    by_cases hb : b ∈ as
    · rw [if_pos (List.contains_iff_mem.mpr hb)]
      exact ih as
    · rw [if_neg (mt List.contains_iff_mem.mp hb)]
      have := ih (as ++ [b])
      rw [List.length_append] at this
      omega

/-- Places are all there already when there are not more of them afterwards. -/
theorem subset_of_length_joinPlaces (h : (joinPlaces as bs).length = as.length) : bs ⊆ as := by
  induction bs generalizing as with
  | nil => exact List.nil_subset _
  | cons b bs ih =>
    rw [joinPlaces_cons] at h
    by_cases hb : b ∈ as
    · rw [if_pos (List.contains_iff_mem.mpr hb)] at h
      exact List.cons_subset.mpr ⟨hb, ih h⟩
    · rw [if_neg (mt List.contains_iff_mem.mp hb)] at h
      have := length_le_joinPlaces (as ++ [b]) bs
      rw [List.length_append, List.length_singleton] at this
      omega

theorem mem_foldl_joinPlaces (step : Nat → List Nat) (places acc : List Nat) :
    j ∈ places.foldl (fun acc i => joinPlaces acc (step i)) acc ↔
      j ∈ acc ∨ ∃ i ∈ places, Leads step i j := by
  induction places generalizing acc with
  | nil => simp
  | cons i places ih =>
    rw [List.foldl_cons, ih, mem_joinPlaces, or_assoc]
    simp only [List.mem_cons, exists_eq_or_imp, Leads]

theorem mem_stepPlaces : j ∈ stepPlaces step places ↔ ∃ i ∈ places, Leads step i j := by
  unfold stepPlaces
  rw [mem_foldl_joinPlaces]
  exact or_iff_right List.not_mem_nil

theorem nodup_stepPlaces (step : Nat → List Nat) (places : List Nat) :
    (stepPlaces step places).Nodup := by
  have hfold (acc : List Nat) (hacc : acc.Nodup) :
      (places.foldl (fun acc i => joinPlaces acc (step i)) acc).Nodup := by
    induction places generalizing acc with
    | nil => exact hacc
    | cons i places ih => exact ih _ (nodup_joinPlaces hacc _)
  exact hfold [] List.nodup_nil

/-! ## 3. Repeated steps -/

theorem mem_exactSteps :
    j ∈ exactSteps step n places ↔ ∃ i ∈ places, Steps (Leads step) n i j := by
  induction n generalizing places with
  | zero => simp [exactSteps, Steps]
  | succ n ih =>
    unfold exactSteps
    cases places with
    | nil => simp
    | cons i places =>
      rw [if_neg (by simp), ih]
      simp only [mem_stepPlaces, Steps]
      constructor
      · rintro ⟨k, ⟨i', hi', hk⟩, hj⟩
        exact ⟨i', hi', k, hk, hj⟩
      · rintro ⟨i', hi', k, hk, hj⟩
        exact ⟨k, ⟨i', hi', hk⟩, hj⟩

theorem mem_exactSteps_singleton : j ∈ exactSteps step n [i] ↔ Steps (Leads step) n i j := by
  rw [mem_exactSteps]
  simp only [List.mem_singleton, exists_eq_left]

theorem nodup_exactSteps (h : places.Nodup) (n : Nat) : (exactSteps step n places).Nodup := by
  induction n generalizing places with
  | zero => exact h
  | succ n ih =>
    unfold exactSteps
    split
    · exact List.nodup_nil
    · exact ih (nodup_stepPlaces step places)

/-- Whether no step leads out of a set of places. -/
def Closed (step : Nat → List Nat) (places : List Nat) : Prop :=
  ∀ i ∈ places, ∀ j, Leads step i j → j ∈ places

theorem closed_of_length (h : (joinPlaces places (stepPlaces step places)).length = places.length) :
    Closed step places := by
  intro i hi j hj
  exact subset_of_length_joinPlaces h (mem_stepPlaces.mpr ⟨i, hi, hj⟩)

theorem Closed.steps (h : Closed step places) (hi : i ∈ places) (hs : Steps (Leads step) n i j) :
    j ∈ places := by
  induction n generalizing i with
  | zero => exact hs ▸ hi
  | succ n ih =>
    obtain ⟨k, hk, hj⟩ := hs
    exact ih (h i hi k hk) hj

/-- **The places after at most `count` steps.** The matcher stops as soon as a round adds none. -/
theorem mem_upToSteps {count : Nat} : j ∈ upToSteps step count places ↔
    ∃ n ≤ count, ∃ i ∈ places, Steps (Leads step) n i j := by
  induction count generalizing places with
  | zero => simp [upToSteps, Steps]
  | succ count ih =>
    unfold upToSteps
    dsimp only
    split
    · rename_i hlen
      constructor
      · intro hj
        exact ⟨0, Nat.zero_le _, j, hj, rfl⟩
      · rintro ⟨n, -, i, hi, hs⟩
        exact (closed_of_length hlen).steps hi hs
    · rw [ih]
      simp only [mem_joinPlaces, mem_stepPlaces]
      constructor
      · rintro ⟨n, hn, i, hi | ⟨k, hk, hi⟩, hs⟩
        · exact ⟨n, by omega, i, hi, hs⟩
        · exact ⟨n + 1, by omega, k, hk, i, hi, hs⟩
      · rintro ⟨n, hn, i, hi, hs⟩
        cases n with
        | zero => exact ⟨0, Nat.zero_le _, i, .inl hi, hs⟩
        | succ n =>
          obtain ⟨k, hk, hj⟩ := hs
          exact ⟨n, by omega, k, .inr ⟨i, hi, hk⟩, hj⟩

/-- A set of different places below `size` that has as many of them as there are has them all. -/
theorem mem_of_length {size : Nat} (hnodup : places.Nodup) (hlt : ∀ i ∈ places, i < size)
    (hlen : size ≤ places.length) (hj : j < size) : j ∈ places := by
  have hsub : places ⊆ List.range size := fun i hi => List.mem_range.mpr (hlt i hi)
  have hperm : places.Perm (List.range size) :=
    (hnodup.subperm hsub).perm_of_length_le (by rwa [List.length_range])
  exact hperm.mem_iff.mpr (List.mem_range.mpr hj)

/-- The rounds suffice: each adds a place until no step leads out of the set. -/
theorem closed_upToSteps {size count : Nat} (hstep : ∀ i < size, ∀ j, Leads step i j → j < size)
    (hnodup : places.Nodup) (hlt : ∀ i ∈ places, i < size) (hcount : size ≤ count + places.length) :
    Closed step (upToSteps step count places) := by
  induction count generalizing places with
  | zero =>
    show Closed step places
    intro i hi j hj
    exact mem_of_length hnodup hlt (by omega) (hstep i (hlt i hi) j hj)
  | succ count ih =>
    unfold upToSteps
    dsimp only
    split
    · exact closed_of_length ‹_›
    · rename_i hlen
      refine ih (nodup_joinPlaces hnodup _) (fun j hj => ?_) ?_
      · rcases mem_joinPlaces.mp hj with hj | hj
        · exact hlt j hj
        · obtain ⟨i, hi, hj⟩ := mem_stepPlaces.mp hj
          exact hstep i (hlt i hi) j hj
      · have := length_le_joinPlaces places (stepPlaces step places)
        omega

/-- **The places after any number of steps.** -/
theorem mem_upToSteps_closed {size : Nat} (hstep : ∀ i < size, ∀ j, Leads step i j → j < size)
    (hnodup : places.Nodup) (hlt : ∀ i ∈ places, i < size) :
    j ∈ upToSteps step size places ↔ ∃ n, ∃ i ∈ places, Steps (Leads step) n i j := by
  constructor
  · intro hj
    obtain ⟨n, -, hn⟩ := mem_upToSteps.mp hj
    exact ⟨n, hn⟩
  · rintro ⟨n, i, hi, hs⟩
    have hclosed := closed_upToSteps hstep hnodup hlt (Nat.le_add_right size places.length)
    exact hclosed.steps (mem_upToSteps.mpr ⟨0, Nat.zero_le _, i, hi, rfl⟩) hs

/-- **The places that a repetition between two bounds leads to.** -/
theorem mem_steps_between {least extra : Nat} :
    j ∈ upToSteps step extra (exactSteps step least [i]) ↔
      ∃ n, least ≤ n ∧ n ≤ least + extra ∧ Steps (Leads step) n i j := by
  simp only [mem_upToSteps, mem_exactSteps_singleton]
  constructor
  · rintro ⟨n, hn, k, hk, hj⟩
    exact ⟨least + n, by omega, by omega, steps_add.mpr ⟨k, hk, hj⟩⟩
  · rintro ⟨n, hleast, hmost, hs⟩
    obtain ⟨n, rfl⟩ := Nat.exists_eq_add_of_le hleast
    exact ⟨n, by omega, steps_add.mp hs⟩

/-- **The places that a repetition without an upper bound leads to.** -/
theorem mem_steps_from {size least : Nat} (hstep : ∀ i < size, ∀ j, Leads step i j → j < size)
    (hi : i < size) : j ∈ upToSteps step size (exactSteps step least [i]) ↔
      ∃ n, least ≤ n ∧ Steps (Leads step) n i j := by
  have hlt : ∀ k ∈ exactSteps step least [i], k < size :=
    fun k hk => steps_lt hstep hi (mem_exactSteps_singleton.mp hk)
  rw [mem_upToSteps_closed hstep (nodup_exactSteps (List.nodup_singleton i) least) hlt]
  simp only [mem_exactSteps_singleton]
  constructor
  · rintro ⟨n, k, hk, hj⟩
    exact ⟨least + n, Nat.le_add_right least n, steps_add.mpr ⟨k, hk, hj⟩⟩
  · rintro ⟨n, hleast, hs⟩
    obtain ⟨n, rfl⟩ := Nat.exists_eq_add_of_le hleast
    exact ⟨n, steps_add.mp hs⟩

end Places

/-! ## 4. The matcher -/

namespace Regex

variable {text : List Char} {r : Regex Common.Atom} {i j : Nat}

/-- A match of an atom that begins inside of the text ends inside of it. -/
theorem atom_lt {a : Common.Atom} (h : Dialect.common.Spans a text i j) (hi : i < text.length + 1) :
    j < text.length + 1 := by
  have h : j ∈ a.ends text i := h
  revert h
  fun_cases Common.Atom.ends text i a with
  | case1 ignoreCase s c hc hs =>
    intro h
    rw [List.mem_singleton.mp h]
    have := (List.getElem?_eq_some_iff.mp hc).1
    omega
  | case2 => intro h; cases h
  | case3 => intro h; cases h
  | case4 => intro h; rwa [List.mem_singleton.mp h]
  | case5 => intro h; cases h
  | case6 => intro h; rwa [List.mem_singleton.mp h]
  | case7 => intro h; cases h

/-- A match that begins inside of the text ends inside of it. -/
theorem Spans.lt (h : Spans Dialect.common.Spans text r i j) (hi : i < text.length + 1) :
    j < text.length + 1 := by
  induction r generalizing i j with
  | empty => exact h ▸ hi
  | atom a => exact atom_lt h hi
  | both first second ih₁ ih₂ =>
    obtain ⟨k, h₁, h₂⟩ := h
    exact ih₂ h₂ (ih₁ h₁ hi)
  | either left right ih₁ ih₂ =>
    rcases h with h | h
    · exact ih₁ h hi
    · exact ih₂ h hi
  | repeated least most r ih =>
    obtain ⟨n, -, -, hs⟩ := h
    exact steps_lt (fun k hk l hl => ih hl hk) hi hs

/-- **The matcher finds the places at which a match ends, and no others.** -/
theorem mem_ends (hi : i < text.length + 1) :
    j ∈ ends text r i ↔ Spans Dialect.common.Spans text r i j := by
  induction r generalizing i j with
  | empty => exact List.mem_singleton.trans eq_comm
  | atom a => exact Iff.rfl
  | both first second ih₁ ih₂ =>
    unfold ends Spans
    rw [mem_stepPlaces]
    constructor
    · rintro ⟨k, hk, hj⟩
      have hk := (ih₁ hi).mp hk
      exact ⟨k, hk, (ih₂ (hk.lt hi)).mp hj⟩
    · rintro ⟨k, hk, hj⟩
      exact ⟨k, (ih₁ hi).mpr hk, (ih₂ (hk.lt hi)).mpr hj⟩
  | either left right ih₁ ih₂ =>
    unfold ends Spans
    rw [mem_joinPlaces, ih₁ hi, ih₂ hi]
  | repeated least most r ih =>
    have hleads : ∀ k < text.length + 1, ∀ l,
        Leads (ends text r) k l ↔ Spans Dialect.common.Spans text r k l :=
      fun k hk l => ih hk
    have hlt : ∀ k < text.length + 1, ∀ l, Leads (ends text r) k l → l < text.length + 1 :=
      fun k hk l hl => ((hleads k hk l).mp hl).lt hk
    have hsteps {n : Nat} :
        Steps (Leads (ends text r)) n i j ↔ Steps (Spans Dialect.common.Spans text r) n i j :=
      steps_congr hleads hlt hi
    unfold ends Spans
    cases most with
    | some most =>
      have hbound : least + (most - least) = max least most := by omega
      dsimp only
      rw [mem_steps_between, hbound]
      simp only [hsteps, Option.mem_def, Option.some.injEq, forall_eq']
    | none =>
      dsimp only
      rw [mem_steps_from hlt hi]
      simp only [hsteps, Option.mem_def, reduceCtorEq, false_implies, implies_true, true_and]

/-- **The matcher finds out whether an expression matches some part of a text.** -/
theorem isMatch_iff (r : Regex Common.Atom) (text : List Char) :
    isMatch r text = true ↔ r.Occurs Dialect.common.Spans text := by
  unfold isMatch Occurs
  rw [List.any_eq_true]
  constructor
  · rintro ⟨i, hi, hends⟩
    have hi := List.mem_range.mp hi
    obtain ⟨j, hj⟩ := List.exists_mem_of_ne_nil _ (by simpa using hends)
    exact ⟨i, j, by omega, (mem_ends hi).mp hj⟩
  · rintro ⟨i, j, hi, hspans⟩
    have hmem := (mem_ends (by omega)).mpr hspans
    refine ⟨i, List.mem_range.mpr (by omega), ?_⟩
    simpa using List.ne_nil_of_mem hmem

end Regex

end SqlTemplate.Pattern
