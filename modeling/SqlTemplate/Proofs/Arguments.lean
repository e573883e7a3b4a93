import Mathlib.Data.List.Basic
import SqlTemplate.Value.Access

/-!
# Named arguments

The mapping that named arguments make, with the generic names of their positions among them.

* `Value.compareTexts_eq_iff`, `Value.compareTexts_trans`: texts are in a strict order;
* `Value.IsNamed`: sorted entries with texts as keys;
* `Value.exists_ofNamed`: the entries of a mapping of named values, of which the last one counts;
* `Value.mem_argumentEntries`: the names that the entries of arguments are made under;
* `Value.lookup_argumentEntries_of_mem`, `Value.lookup_argumentEntries_of_not_mem`: what they make
  of a name and of a generic name;
* `Value.ofArguments_entries`: the mapping of named arguments, entry by entry.
-/

namespace SqlTemplate.Value

/-! ## 1. The order of texts -/

/-- The order of lists is the lexicographic one. -/
theorem compareLists_eq {α : Type} (cmp : α → α → Ordering) (as bs : List α) :
    compareLists cmp as bs = List.compareLex cmp as bs := by
  induction as generalizing bs with
  | nil => cases bs <;> rfl
  | cons a as ih =>
    cases bs with
    | nil => rfl
    | cons b bs => rw [compareLists, List.compareLex_cons_cons, ih]

/-- The code points of a text. -/
def codes (s : String) : List Nat := s.toList.map Char.toNat

theorem codes_inj {s t : String} (h : codes s = codes t) : s = t :=
  String.toList_inj.mp (List.map_injective_iff.mpr (fun _ _ => Char.toNat_inj.mp) h)

theorem compareTexts_eq (s t : String) :
    compareTexts s t = List.compareLex Ord.compare (codes s) (codes t) := by
  have hcodes (cs ds : List Char) :
      compareLists (fun c d => Ord.compare c.toNat d.toNat) cs ds =
        compareLists Ord.compare (cs.map Char.toNat) (ds.map Char.toNat) := by
    induction cs generalizing ds with
    | nil => cases ds <;> rfl
    | cons c cs ih =>
      cases ds with
      | nil => rfl
      | cons d ds => rw [compareLists, List.map_cons, List.map_cons, compareLists, ih]
  unfold compareTexts
  rw [hcodes, compareLists_eq]
  rfl

theorem compareTexts_eq_iff {s t : String} : compareTexts s t = .eq ↔ s = t := by
  rw [compareTexts_eq, Std.LawfulEqCmp.compare_eq_iff_eq]
  exact ⟨codes_inj, congrArg codes⟩

theorem compareTexts_gt_iff {s t : String} : compareTexts s t = .gt ↔ compareTexts t s = .lt := by
  rw [compareTexts_eq, compareTexts_eq, Std.OrientedCmp.gt_iff_lt]

theorem compareTexts_trans {s t u : String} (hs : compareTexts s t = .lt)
    (ht : compareTexts t u = .lt) : compareTexts s u = .lt := by
  rw [compareTexts_eq] at hs ht ⊢
  exact Std.TransCmp.lt_trans hs ht

/-- A text is no other value. -/
theorem compare_str_eq_iff {s : String} {key : Value} :
    compare (.str s) key = .eq ↔ key = .str s := by
  constructor
  · intro h
    cases key with
    | str t => rw [compareTexts_eq_iff.mp h]
    | _ => cases h
  · rintro rfl
    exact compareTexts_eq_iff.mpr rfl

/-! ## 2. Entries with texts as keys -/

/-- Entries in ascending order of their keys, which are texts. -/
structure IsNamed (entries : List (Value × Value)) : Prop where
  named : ∀ e ∈ entries, ∃ name, e.1 = .str name
  sorted : entries.Pairwise fun e f => compare e.1 f.1 = .lt

theorem isNamed_nil : IsNamed [] := ⟨by simp, .nil⟩

/-- The head comes before every other entry. -/
theorem isNamed_cons {name : String} {v : Value} {entries : List (Value × Value)} :
    IsNamed ((.str name, v) :: entries) ↔
      (∀ e ∈ entries, compare (.str name) e.1 = .lt) ∧ IsNamed entries := by
  constructor
  · intro h
    have hsorted := List.pairwise_cons.mp h.sorted
    exact ⟨hsorted.1, fun e he => h.named e (.tail _ he), hsorted.2⟩
  · rintro ⟨hfirst, h⟩
    refine ⟨fun e he => ?_, List.pairwise_cons.mpr ⟨hfirst, h.sorted⟩⟩
    cases he with
    | head => exact ⟨name, rfl⟩
    | tail _ he => exact h.named e he

/-- An insertion adds one key. -/
theorem mem_insertEntry (key v : Value) (name : String) (entries : List (Value × Value)) :
    key ∈ (insertEntry (.str name) v entries).map Prod.fst ↔
      key = .str name ∨ key ∈ entries.map Prod.fst := by
  induction entries with
  | nil => simp [insertEntry]
  | cons e entries ih =>
    obtain ⟨k, w⟩ := e
    unfold insertEntry
    split
    · simp
    · next hk => simp [compare_str_eq_iff.mp hk]
    · simp only [List.map_cons, List.mem_cons, ih]
      exact or_left_comm

theorem find?_self (name : String) (v : Value) (entries : List (Value × Value)) :
    find? (.str name) ((.str name, v) :: entries) = some v :=
  if_pos (beq_iff_eq.mpr (compare_str_eq_iff.mpr rfl))

theorem find?_of_ne {name : String} {key : Value} (h : key ≠ .str name) (v : Value)
    (entries : List (Value × Value)) :
    find? (.str name) ((key, v) :: entries) = find? (.str name) entries :=
  if_neg fun heq => h (compare_str_eq_iff.mp (beq_iff_eq.mp heq))

theorem find?_insertEntry_self (name : String) (v : Value) (entries : List (Value × Value)) :
    find? (.str name) (insertEntry (.str name) v entries) = some v := by
  induction entries with
  | nil => exact find?_self name v []
  | cons e entries ih =>
    obtain ⟨k, w⟩ := e
    unfold insertEntry
    split
    · exact find?_self name v _
    · next hk =>
      rw [compare_str_eq_iff.mp hk]
      exact find?_self name v _
    · next hk =>
      have hne : k ≠ .str name := fun heq => nomatch (compare_str_eq_iff.mpr heq).symm.trans hk
      rw [find?_of_ne hne, ih]

theorem find?_insertEntry_of_ne {name other : String} (h : name ≠ other) (v : Value)
    (entries : List (Value × Value)) :
    find? (.str name) (insertEntry (.str other) v entries) = find? (.str name) entries := by
  have hother : (Value.str other) ≠ .str name := fun heq => h (Value.str.inj heq).symm
  induction entries with
  | nil => exact find?_of_ne hother v []
  | cons e entries ih =>
    obtain ⟨k, w⟩ := e
    unfold insertEntry
    split
    · exact find?_of_ne hother v _
    · next hk =>
      rw [compare_str_eq_iff.mp hk, find?_of_ne hother, find?_of_ne hother]
    · simp only [find?, ih]

theorem IsNamed.insertEntry {entries : List (Value × Value)} (h : IsNamed entries) (name : String)
    (v : Value) : IsNamed (insertEntry (.str name) v entries) := by
  induction entries with
  | nil => exact isNamed_cons.mpr ⟨by simp, isNamed_nil⟩
  | cons e entries ih =>
    obtain ⟨k, w⟩ := e
    obtain ⟨other, rfl⟩ := h.named (k, w) (.head _)
    obtain ⟨hfirst, hrest⟩ := isNamed_cons.mp h
    unfold Value.insertEntry
    split
    · next hk =>
      refine isNamed_cons.mpr ⟨fun e he => ?_, h⟩
      cases he with
      | head => exact hk
      | tail _ he =>
        obtain ⟨third, hthird⟩ := hrest.named e he
        have hlt := hfirst e he
        rw [hthird] at hlt ⊢
        exact compareTexts_trans hk hlt
    · exact isNamed_cons.mpr ⟨hfirst, hrest⟩
    · next hk =>
      refine isNamed_cons.mpr ⟨fun e he => ?_, ih hrest⟩
      obtain hkey | hkey := (mem_insertEntry e.1 v name entries).mp (List.mem_map_of_mem he)
      · rw [hkey]
        exact compareTexts_gt_iff.mp hk
      · obtain ⟨f, hf, hfst⟩ := List.mem_map.mp hkey
        exact hfst ▸ hfirst f hf

/-- The last value of a name is that of the head where no other entry bears the name. -/
theorem lookup_reverse_cons (name other : String) (v : Value) (values : List (String × Value)) :
    ((other, v) :: values).reverse.lookup name =
      (values.reverse.lookup name).or (if name = other then some v else none) := by
  rw [List.reverse_cons, List.lookup_append, List.lookup_cons]
  by_cases h : name = other
  · rw [if_pos h, beq_iff_eq.mpr h]
  · rw [if_neg h, beq_false_of_ne h]
    rfl

/-- The value of the last entry that bears a name. -/
theorem lookup_reverse_of_last {name : String} (front : List (String × Value)) (v : Value)
    {back : List (String × Value)} (h : name ∉ back.map Prod.fst) :
    (front ++ (name, v) :: back).reverse.lookup name = some v := by
  have hback : back.reverse.lookup name = none :=
    List.lookup_eq_none_iff.mpr fun e he => bne_iff_ne.mpr fun heq =>
      h (heq ▸ List.mem_map_of_mem (List.mem_reverse.mp he))
  rw [List.reverse_append, List.lookup_append, lookup_reverse_cons, hback, if_pos rfl,
    Option.none_or, Option.some_or]

/-- **The entries of named values**: sorted, one for each name, of which the last value counts. -/
theorem exists_ofNamed (values : List (String × Value)) :
    ∃ entries, ofNamed values = .map entries ∧ IsNamed entries ∧
      (∀ key, key ∈ entries.map Prod.fst ↔ ∃ name ∈ values.map Prod.fst, key = .str name) ∧
      ∀ name, find? (.str name) entries = values.reverse.lookup name := by
  -- What a run over the values adds to the entries that are there already.
  have hrun (sorted : List (Value × Value)) (h : IsNamed sorted) :
      let entries := values.foldl (fun sorted e => insertEntry (.str e.1) e.2 sorted) sorted
      IsNamed entries ∧
      (∀ key, key ∈ entries.map Prod.fst ↔
        (∃ name ∈ values.map Prod.fst, key = .str name) ∨ key ∈ sorted.map Prod.fst) ∧
      ∀ name, find? (.str name) entries =
        (values.reverse.lookup name).or (find? (.str name) sorted) := by
    induction values generalizing sorted with
    | nil => exact ⟨h, by simp, by simp⟩
    | cons e values ih =>
      obtain ⟨name, v⟩ := e
      obtain ⟨hnamed, hkeys, hfind⟩ := ih _ (h.insertEntry name v)
      refine ⟨hnamed, fun key => ?_, fun other => ?_⟩
      · rw [List.foldl_cons, hkeys, mem_insertEntry]
        simp only [List.map_cons, List.exists_mem_cons_iff, or_assoc, or_left_comm]
      · rw [List.foldl_cons, hfind, lookup_reverse_cons, Option.or_assoc]
        by_cases hn : other = name
        · rw [hn, find?_insertEntry_self, if_pos rfl, Option.some_or]
        · rw [find?_insertEntry_of_ne hn, if_neg hn, Option.none_or]
  obtain ⟨hnamed, hkeys, hfind⟩ := hrun [] isNamed_nil
  refine ⟨_, ?_, hnamed, fun key => ?_, fun name => ?_⟩
  · rw [ofNamed, ofEntries, List.foldl_map]
  · rw [hkeys]
    simp
  · rw [hfind]
    exact Option.or_none

/-! ## 3. Generic names -/

theorem genericName_inj {i j : Nat} : genericName i = genericName j ↔ i = j := by
  constructor
  · intro h
    have hdigits : (toString i).toList = (toString j).toList :=
      congrArg String.toList ((String.append_right_inj "param").mp h)
    have hvalue (n : Nat) : Nat.ofDigitChars 10 (toString n).toList 0 = n := by
      rw [Nat.toString_eq_repr, Nat.toList_repr, Nat.ofDigitChars_ten_toDigits]
    rw [← hvalue i, hdigits, hvalue j]
  · exact congrArg genericName

section Entries

variable {names : List String} {position : Nat}

theorem argumentEntries_of_mem (h : genericName position ∈ names) (name : String) (v : Value)
    (args : List (String × Value)) :
    argumentEntries names position ((name, v) :: args) =
      (name, v) :: argumentEntries names (position + 1) args :=
  if_pos (List.contains_iff_mem.mpr h)

theorem argumentEntries_of_not_mem (h : genericName position ∉ names) (name : String) (v : Value)
    (args : List (String × Value)) :
    argumentEntries names position ((name, v) :: args) =
      (name, v) :: (genericName position, v) :: argumentEntries names (position + 1) args :=
  if_neg fun hmem => h (List.contains_iff_mem.mp hmem)

/-- The names that entries are made under: those of the arguments, and the generic names of their
    positions that no argument bears. -/
theorem mem_argumentEntries (position : Nat) (args : List (String × Value)) (name : String) :
    name ∈ (argumentEntries names position args).map Prod.fst ↔
      name ∈ args.map Prod.fst ∨
        ∃ i < args.length, name = genericName (position + i) ∧ name ∉ names := by
  induction args generalizing position with
  | nil => simp [argumentEntries]
  | cons e args ih =>
    obtain ⟨own, v⟩ := e
    have hsplit : (∃ i < args.length + 1, name = genericName (position + i) ∧ name ∉ names) ↔
        (name = genericName position ∧ name ∉ names) ∨
          ∃ i < args.length, name = genericName (position + 1 + i) ∧ name ∉ names := by
      rw [Nat.exists_lt_succ_left]
      simp only [Nat.add_zero, Nat.add_assoc, Nat.add_comm 1]
    by_cases h : genericName position ∈ names
    · have hno : ¬ (name = genericName position ∧ name ∉ names) := by
        rintro ⟨rfl, hnot⟩
        exact hnot h
      rw [argumentEntries_of_mem h]
      simp only [List.map_cons, List.mem_cons, List.length_cons, ih, hsplit, hno, false_or,
        or_assoc]
    · have hyes : name = genericName position ∧ name ∉ names ↔ name = genericName position :=
        and_iff_left_of_imp fun heq => heq ▸ h
      rw [argumentEntries_of_not_mem h]
      simp only [List.map_cons, List.mem_cons, List.length_cons, ih, hsplit, hyes, or_assoc,
        or_left_comm]

/-- No generic name is made that hides the name of an argument. -/
theorem lookup_argumentEntries_of_mem {name : String} (hname : name ∈ names) (position : Nat)
    (args : List (String × Value)) :
    (argumentEntries names position args).reverse.lookup name = args.reverse.lookup name := by
  induction args generalizing position with
  | nil => rfl
  | cons e args ih =>
    obtain ⟨own, v⟩ := e
    by_cases h : genericName position ∈ names
    · rw [argumentEntries_of_mem h, lookup_reverse_cons, lookup_reverse_cons, ih]
    · have hne : name ≠ genericName position := fun heq => h (heq ▸ hname)
      rw [argumentEntries_of_not_mem h, lookup_reverse_cons, lookup_reverse_cons,
        lookup_reverse_cons, ih, if_neg hne, Option.or_none]

/-- A generic name that no argument bears is made for its own position alone. -/
theorem lookup_argumentEntries_of_not_mem {place : Nat} (hplace : genericName place ∉ names)
    (position : Nat) (args : List (String × Value)) (hnames : ∀ e ∈ args, e.1 ∈ names) :
    (argumentEntries names position args).reverse.lookup (genericName place) =
      if position ≤ place then args[place - position]?.map Prod.snd else none := by
  induction args generalizing position with
  | nil => simp [argumentEntries]
  | cons e args ih =>
    obtain ⟨own, v⟩ := e
    have hown : genericName place ≠ own := fun heq => hplace (heq ▸ hnames (own, v) (.head _))
    have hrest := ih (position + 1) fun e he => hnames e (.tail _ he)
    obtain rfl | hne := eq_or_ne place position
    · rw [argumentEntries_of_not_mem hplace, lookup_reverse_cons, lookup_reverse_cons, hrest,
        if_neg (Nat.not_succ_le_self place), if_pos rfl, Nat.sub_self, if_pos (Nat.le_refl place)]
      rfl
    · have hskip : (argumentEntries names position ((own, v) :: args)).reverse.lookup
          (genericName place) =
          (argumentEntries names (position + 1) args).reverse.lookup (genericName place) := by
        by_cases h : genericName position ∈ names
        · rw [argumentEntries_of_mem h, lookup_reverse_cons, if_neg hown, Option.or_none]
        · rw [argumentEntries_of_not_mem h, lookup_reverse_cons, lookup_reverse_cons,
            if_neg hown, Option.or_none, if_neg (genericName_inj.not.mpr hne), Option.or_none]
      rw [hskip, hrest]
      obtain hlt | hlt := Nat.lt_or_gt_of_ne hne
      · rw [if_neg (by omega), if_neg (by omega)]
      · obtain ⟨d, rfl⟩ := Nat.exists_eq_add_of_lt hlt
        rw [if_pos (by omega), if_pos (by omega), Nat.add_assoc position d 1,
          Nat.add_sub_cancel_left, Nat.add_comm d 1, ← Nat.add_assoc, Nat.add_sub_cancel_left,
          Nat.add_comm 1 d, List.getElem?_cons_succ]

end Entries

/-! ## 4. The mapping of named arguments -/

/-- **The mapping of named arguments.** Its keys are the names of the arguments and the generic
    names of their positions, in order and each once. A name stands for the value of the last
    argument that bears it, and a generic name that no argument bears for the value of the
    argument at its position. -/
theorem ofArguments_entries (args : List (String × Value)) :
    ∃ entries, ofArguments args = .map entries ∧
      entries.Pairwise (fun e f => compare e.1 f.1 = .lt) ∧
      (∀ key, key ∈ entries.map Prod.fst ↔ ∃ name, key = .str name ∧
        (name ∈ args.map Prod.fst ∨ ∃ i < args.length, name = genericName (i + 1))) ∧
      (∀ front name v back, args = front ++ (name, v) :: back → name ∉ back.map Prod.fst →
        (ofArguments args).attr? name = some v) ∧
      ∀ i name v, args[i]? = some (name, v) → genericName (i + 1) ∉ args.map Prod.fst →
        (ofArguments args).attr? (genericName (i + 1)) = some v := by
  obtain ⟨entries, hmap, hnamed, hkeys, hfind⟩ :=
    exists_ofNamed (argumentEntries (args.map Prod.fst) 1 args)
  have hargs : ofArguments args = .map entries := hmap
  have hattr (name : String) : (ofArguments args).attr? name =
      (argumentEntries (args.map Prod.fst) 1 args).reverse.lookup name := by
    rw [hargs]
    exact hfind name
  refine ⟨entries, hargs, hnamed.sorted, fun key => ?_, fun front name v back hsplit hlast => ?_,
    fun i name v hi hgeneric => ?_⟩
  · rw [hkeys]
    refine exists_congr fun name => ?_
    rw [and_comm, mem_argumentEntries]
    refine and_congr_right fun _ => ?_
    by_cases hmem : name ∈ args.map Prod.fst
    · simp only [hmem, true_or]
    · simp only [hmem, not_false_eq_true, and_true, Nat.add_comm 1]
  · have hmem : name ∈ args.map Prod.fst := by simp [hsplit]
    rw [hattr, lookup_argumentEntries_of_mem hmem, hsplit, lookup_reverse_of_last front v hlast]
  · rw [hattr, lookup_argumentEntries_of_not_mem hgeneric 1 args fun e he =>
      List.mem_map_of_mem he, if_pos (Nat.le_add_left 1 i), Nat.add_sub_cancel, hi]
    rfl

/-- Arguments of which one is named twice, and two bear the generic name of another's position. -/
def clashingArguments : List (String × Value) :=
  [("param2", .int 1), ("x", .int 2), ("x", .int 3), ("param1", .str "e")]

theorem clashingArguments_read :
    (ofArguments clashingArguments).attr? "x" = some (.int 3) ∧
      (ofArguments clashingArguments).attr? "param1" = some (.str "e") ∧
      (ofArguments clashingArguments).attr? "param2" = some (.int 1) ∧
      (ofArguments clashingArguments).attr? "param3" = some (.int 3) ∧
      (ofArguments clashingArguments).attr? "param4" = some (.str "e") := by
  obtain ⟨_, _, _, _, hname, hgeneric⟩ := ofArguments_entries clashingArguments
  exact ⟨hname [("param2", .int 1), ("x", .int 2)] "x" (.int 3) [("param1", .str "e")] rfl
      (by decide),
    hname [("param2", .int 1), ("x", .int 2), ("x", .int 3)] "param1" (.str "e") [] rfl
      (by decide),
    hname [] "param2" (.int 1) [("x", .int 2), ("x", .int 3), ("param1", .str "e")] rfl
      (by decide),
    hgeneric 2 "x" (.int 3) rfl (by decide), hgeneric 3 "param1" (.str "e") rfl (by decide)⟩

end SqlTemplate.Value
