import SqlTemplate.Marker
import SqlTemplate.Proofs.PathContent

/-!
# Reading contents that name a path

* `PathContent.parse_congr`: contents that differ in their paths alone say the same otherwise;
* `PathContent.parse_path`: the steps of the path, from its first name on;
* `PathContent.ofContent_congr`: the marker of such a content, which no bindings can change but for
  its type.
-/

namespace SqlTemplate

open Text (isBlank)

/-! ## 1. What a content says -/

/-- A text that is cut before its second part is reached keeps the second part. -/
theorem dropWhile_append_stop {f : Char → Bool} {ys : List Char} (xs : List Char)
    (hy : ∀ c, ys.head? = some c → f c = false) :
    (xs ++ ys).dropWhile f = xs.dropWhile f ++ ys := by
  induction xs with
  | nil => exact dropWhile_at_stop hy
  | cons c xs ih =>
    cases hc : f c with
    | true =>
      rw [List.cons_append, List.dropWhile_cons_of_pos hc, List.dropWhile_cons_of_pos hc, ih]
    | false =>
      have hn : ¬f c = true := ne_true_of_eq_false hc
      rw [List.cons_append, List.dropWhile_cons_of_neg hn, List.dropWhile_cons_of_neg hn,
        List.cons_append]

namespace Placeholder

/-- Whether a character belongs to a target. -/
def isTargetChar (c : Char) : Bool := c != ',' && c != ':'

/-- A target that does not start with a parenthesis, and the place behind it. -/
theorem outlineTarget_plain (offset : Nat) {cs : List Char} (h : cs.head? ≠ some '(') :
    outlineTarget ⟨offset, cs⟩ = .ok (false, Text.Cursor.takeWhile isTargetChar ⟨offset, cs⟩) := by
  unfold outlineTarget
  split
  · rename_i hs
    have hs : cs = _ := hs
    rw [hs] at h
    exact absurd rfl h
  · rfl

/-- A target that does not start with a parenthesis goes on to the next comma or colon. -/
theorem outlineTarget_path (offset : Nat) {cs : List Char} (h : cs.head? ≠ some '(') :
    ∃ part stop, outlineTarget ⟨offset, cs⟩ = .ok (false, part, ⟨stop, cs.dropWhile isTargetChar⟩) ∧
      part.raw = cs.takeWhile isTargetChar :=
  ⟨_, _, outlineTarget_plain offset h, rfl⟩

/-- What follows the target is read in the same way at any place. -/
theorem outlineRest_place {o : Nat} {cs : List Char} {jdbcType options : Option Text.Part}
    (h : outlineRest ⟨o, cs⟩ = .ok (jdbcType, options)) (o' : Nat) :
    ∃ jdbcType' options', outlineRest ⟨o', cs⟩ = .ok (jdbcType', options') ∧
      jdbcType'.map Text.Part.raw = jdbcType.map Text.Part.raw ∧
      options'.map Text.Part.raw = options.map Text.Part.raw := by
  cases cs with
  | nil =>
    cases h
    exact ⟨none, none, rfl, rfl, rfl⟩
  | cons c cs =>
    by_cases hc : c = ':'
    · subst hc
      unfold outlineRest Text.Cursor.takeWhile at h ⊢
      simp only at h ⊢
      split at h
      · cases h
      · rename_i ht
        rw [if_neg ht]
        split at h
        · cases h
          exact ⟨_, _, rfl, rfl, rfl⟩
        · cases h
          exact ⟨_, _, rfl, rfl, rfl⟩
    · by_cases hc' : c = ','
      · subst hc'
        cases h
        exact ⟨_, _, rfl, rfl, rfl⟩
      · unfold outlineRest at h
        simp only at h
        split at h
        · rename_i hs
          cases hs
        · rename_i hs
          cases hs
          exact absurd rfl hc
        · rename_i hs
          cases hs
          exact absurd rfl hc'
        · cases h

/-- The options behind a target, if there are any. -/
def optionsOf : Option (List Char) → Except Reason (List (String × String))
  | none => .ok []
  | some raw => readOptions (Text.splitAll ',' raw)

/-- A content without an outline says nothing. -/
theorem parse_of_refused {content : List Char} {reason : Reason}
    (h : outline content = .error reason) : parse content = .error reason := by
  unfold parse
  rw [h]
  rfl

/-- Reading a content looks at the texts of its parts, not at their places. -/
theorem parse_of_outline {content : List Char} {o : Outline} (h : outline content = .ok o) :
    parse content = (optionsOf (o.options.map Text.Part.raw)).map fun options =>
      { target := if o.computed then .expression (trimmed o.target.raw)
          else .property (trimmed o.target.raw)
        jdbcType := (o.jdbcType.map Text.Part.raw).map trimmed
        options } := by
  unfold parse
  simp only [h, bind, Except.bind]
  rw [Option.map_map]
  cases o.options with
  | none => rfl
  | some part =>
    cases hr : readOptions (Text.splitAll ',' part.raw) with
    | error reason =>
      simp only [optionsOf, Option.map_some, hr]
      rfl
    | ok options =>
      simp only [optionsOf, Option.map_some, hr]
      rfl

end Placeholder

namespace PathContent

variable (p : PathContent)

theorem isTargetChar_of_blank {c : Char} (h : isBlank c = true) :
    Placeholder.isTargetChar c = true := by
  unfold Placeholder.isTargetChar
  by_cases hc : c = ','
  · subst hc
    cases h
  · by_cases hc' : c = ':'
    · subst hc'
      cases h
    · rw [bne_iff_ne.mpr hc, bne_iff_ne.mpr hc']
      rfl

theorem isTargetChar_of_path {c : Char} (h : c ∈ p.path) : Placeholder.isTargetChar c = true := by
  have hc := p.path_chars c h
  unfold isPathChar at hc
  unfold Placeholder.isTargetChar
  simp only [Bool.not_eq_true', Bool.or_eq_false_iff] at hc
  rw [bne, bne, hc.1.2, hc.2]
  rfl

theorem isTargetChar_rest (c : Char) (h : (Text.trimStart p.rest).head? = some c) :
    Placeholder.isTargetChar c = false := by
  rcases p.rest_start c h with rfl | rfl
  · rfl
  · rfl

theorem isSkipped_rest (c : Char) (h : (Text.trimStart p.rest).head? = some c) :
    Placeholder.isSkipped c = false := by
  rcases p.rest_start c h with rfl | rfl
  · rfl
  · rfl

/-- The blanks in front of what follows the path. -/
theorem blanks_append_rest :
    p.rest.takeWhile isBlank ++ Text.trimStart p.rest = p.rest :=
  List.takeWhile_append_dropWhile

/-- The blanks in front of the path that the placeholder grammar leaves to the target. -/
def kept : List Char := p.lead.dropWhile Placeholder.isSkipped

theorem kept_blank {c : Char} (h : c ∈ p.kept) : isBlank c = true :=
  p.lead_blank c ((List.dropWhile_sublist _).subset h)

theorem dropWhile_text :
    p.text.dropWhile Placeholder.isSkipped = p.kept ++ (p.path ++ p.rest) := by
  unfold text
  rw [List.append_assoc]
  refine dropWhile_append_stop p.lead fun c hc => ?_
  rw [head?_path_append] at hc
  exact (p.path_start c hc).2.2

theorem head?_text : (p.kept ++ (p.path ++ p.rest)).head? ≠ some '(' := by
  intro h
  cases hk : p.kept with
  | nil =>
    rw [hk, List.nil_append, head?_path_append] at h
    exact (p.path_start _ h).2.1 rfl
  | cons c cs =>
    rw [hk] at h
    have hb : isBlank c = true := p.kept_blank (by rw [hk]; exact List.mem_cons_self)
    cases h
    cases hb

theorem target_text :
    p.kept ++ (p.path ++ p.rest) =
      (p.kept ++ p.path ++ p.rest.takeWhile isBlank) ++ Text.trimStart p.rest := by
  rw [List.append_assoc, List.append_assoc, p.blanks_append_rest]

theorem isTargetChar_target {c : Char}
    (h : c ∈ p.kept ++ p.path ++ p.rest.takeWhile isBlank) :
    Placeholder.isTargetChar c = true := by
  rcases List.mem_append.mp h with h | h
  · rcases List.mem_append.mp h with h | h
    · exact isTargetChar_of_blank (p.kept_blank h)
    · exact p.isTargetChar_of_path h
  · exact isTargetChar_of_blank (List.mem_takeWhile_imp h)

/-- The target of a content, without its blank ends, is the path. -/
theorem trim_target : Text.trim (p.kept ++ p.path ++ p.rest.takeWhile isBlank) = p.path :=
  trim_blanks (fun _ => p.kept_blank) (fun _ => p.not_blank_of_mem)
    fun _ => List.mem_takeWhile_imp

/-- **The outline of a content**: its target is the path, and what follows the path is read on its
    own. -/
theorem outline_text : ∃ part place, Text.trim part.raw = p.path ∧
    Placeholder.outline p.text =
      (Placeholder.outlineRest ⟨place, Text.trimStart p.rest⟩).map fun found =>
        { computed := false, target := part, jdbcType := found.1, options := found.2 } := by
  obtain ⟨part, stop, ht, hraw⟩ := Placeholder.outlineTarget_path
    (0 + Text.utf8Size (p.text.takeWhile Placeholder.isSkipped)) p.head?_text
  have hraw : part.raw = p.kept ++ p.path ++ p.rest.takeWhile isBlank := by
    rw [hraw, target_text]
    exact takeWhile_stop (fun _ => p.isTargetChar_target) p.isTargetChar_rest
  have hstop : (p.kept ++ (p.path ++ p.rest)).dropWhile Placeholder.isTargetChar =
      Text.trimStart p.rest := by
    rw [target_text]
    exact dropWhile_stop (fun _ => p.isTargetChar_target) p.isTargetChar_rest
  have hskip : Text.Cursor.skipWhile Placeholder.isSkipped ⟨stop, Text.trimStart p.rest⟩ =
      ⟨stop + Text.utf8Size ((Text.trimStart p.rest).takeWhile Placeholder.isSkipped),
        Text.trimStart p.rest⟩ := by
    have hd : (Text.trimStart p.rest).dropWhile Placeholder.isSkipped = Text.trimStart p.rest :=
      dropWhile_at_stop p.isSkipped_rest
    unfold Text.Cursor.skipWhile Text.Cursor.takeWhile
    rw [hd]
  have htrim : Text.trim part.raw = p.path := by rw [hraw, trim_target]
  have hne : (Text.trim part.raw).isEmpty = false := by
    rw [htrim]
    exact List.isEmpty_eq_false_iff.mpr p.path_ne
  rw [hstop] at ht
  have hstart : (Text.Cursor.ofText p.text).skipWhile Placeholder.isSkipped =
      ⟨0 + Text.utf8Size (p.text.takeWhile Placeholder.isSkipped),
        p.kept ++ (p.path ++ p.rest)⟩ := by
    rw [← dropWhile_text]
    rfl
  refine ⟨part, stop + Text.utf8Size ((Text.trimStart p.rest).takeWhile Placeholder.isSkipped),
    htrim, ?_⟩
  unfold Placeholder.outline
  simp only [hstart, ht, hne, hskip, bind, Except.bind, Bool.false_eq_true, ↓reduceIte, pure,
    Except.pure]
  cases Placeholder.outlineRest ⟨stop + Text.utf8Size
      ((Text.trimStart p.rest).takeWhile Placeholder.isSkipped), Text.trimStart p.rest⟩ with
  | error reason => rfl
  | ok found => rfl

/-- **Contents that differ in their paths alone** name their paths and say the same otherwise. -/
theorem parse_congr {p p' : PathContent} (hr : p'.rest = p.rest) {placeholder : Placeholder}
    (h : Placeholder.parse p'.text = .ok placeholder) :
    placeholder.target = .property (String.ofList p'.path) ∧
      Placeholder.parse p.text =
        .ok { placeholder with target := .property (String.ofList p.path) } := by
  obtain ⟨part', place', htrim', ho'⟩ := p'.outline_text
  obtain ⟨part, place, htrim, ho⟩ := p.outline_text
  cases hf : Placeholder.outlineRest ⟨place', Text.trimStart p'.rest⟩ with
  | error reason =>
    rw [hf] at ho'
    unfold Placeholder.parse at h
    simp only [ho', Except.map, bind, Except.bind] at h
    cases h
  | ok found' =>
    obtain ⟨jdbcType', options'⟩ := found'
    obtain ⟨jdbcType, options, hf', hj, hs⟩ := Placeholder.outlineRest_place hf place
    rw [hf] at ho'
    rw [hr] at hf'
    rw [hf'] at ho
    rw [Placeholder.parse_of_outline ho'] at h
    rw [Placeholder.parse_of_outline ho]
    simp only [hj, hs]
    cases hopt : Placeholder.optionsOf (options'.map Text.Part.raw) with
    | error reason =>
      simp only [hopt, Except.map] at h
      cases h
    | ok pairs =>
      simp only [hopt, Except.map] at h
      cases h
      refine ⟨?_, ?_⟩
      · show Target.property (Placeholder.trimmed part'.raw) = _
        rw [Placeholder.trimmed, htrim']
      · simp only [Except.map, Bool.false_eq_true, ↓reduceIte]
        rw [Placeholder.trimmed, htrim]

end PathContent

/-! ## 2. The steps of a path -/

namespace Path

/-- A step between brackets is never a name. -/
theorem bracketStep_ne_name (cs : List Char) (name : String) : bracketStep cs ≠ .name name := by
  unfold bracketStep
  simp only
  split
  · intro h
    cases h
  · intro h
    cases h

/-- What is being read between brackets becomes the next step. -/
theorem stepsFrom_bracket (read cs : List Char) :
    ∃ inner steps, stepsFrom (.bracket read) cs = bracketStep inner :: steps := by
  induction cs generalizing read with
  | nil => exact ⟨read, [], rfl⟩
  | cons c cs ih =>
    unfold stepsFrom
    by_cases hc : c = ']'
    · rw [if_pos hc]
      exact ⟨read, _, rfl⟩
    · rw [if_neg hc]
      exact ih _

/-- A name is read up to a dot or a bracket. -/
theorem stepsFrom_name {name : List Char}
    (h : ∀ c ∈ name, c ≠ '.' ∧ c ≠ '[' ∧ isBlank c = false) (read cs : List Char) :
    stepsFrom (.name read) (name ++ cs) = stepsFrom (.name (read ++ name)) cs := by
  induction name generalizing read with
  | nil => rw [List.nil_append, List.append_nil]
  | cons c name ih =>
    obtain ⟨hdot, hbracket, hblank⟩ := h c List.mem_cons_self
    have hb : ¬isBlank c = true := ne_true_of_eq_false hblank
    rw [List.cons_append, stepsFrom, if_neg hdot, if_neg hbracket, if_neg hb,
      ih (fun d hd => h d (List.mem_cons_of_mem _ hd)), List.append_assoc]
    rfl

/-- Where a name ends, the steps behind it do not depend on it. -/
theorem stepsFrom_end (name : List Char) {cs : List Char}
    (h : ∀ c, cs.head? = some c → endsRoot c = true) :
    stepsFrom (.name name) cs = nameStep name ++ stepsFrom (.name []) cs := by
  cases cs with
  | nil => exact (List.append_nil _).symm
  | cons c cs =>
    have hc := h c rfl
    unfold endsRoot at hc
    rcases Bool.or_eq_true_iff.mp hc with hc | hc
    · rw [eq_of_beq hc]
      rfl
    · rw [eq_of_beq hc]
      rfl

/-- A path without blanks is its first name and what follows it. -/
theorem stepsFrom_root {path : List Char} (h : ∀ c ∈ path, isBlank c = false) :
    stepsFrom (.name []) path = nameStep (path.takeWhile fun c => !endsRoot c) ++
      stepsFrom (.name []) (path.dropWhile fun c => !endsRoot c) := by
  have hroot : ∀ c ∈ path.takeWhile fun c => !endsRoot c,
      c ≠ '.' ∧ c ≠ '[' ∧ isBlank c = false := by
    intro c hc
    have he : (!endsRoot c) = true :=
      List.mem_takeWhile_imp (p := fun c => !endsRoot c) (l := path) hc
    unfold endsRoot at he
    rw [Bool.not_eq_true', Bool.or_eq_false_iff, beq_eq_false_iff_ne, beq_eq_false_iff_ne] at he
    exact ⟨he.1, he.2, h c ((List.takeWhile_sublist _).subset hc)⟩
  have hend : ∀ c, (path.dropWhile fun c => !endsRoot c).head? = some c → endsRoot c = true := by
    intro c hc
    have hn := List.head?_dropWhile_not (fun c => !endsRoot c) path
    rw [hc] at hn
    have hn : (!endsRoot c) = false := hn
    rw [Bool.not_eq_false'] at hn
    exact hn
  conv_lhs => rw [← List.takeWhile_append_dropWhile (p := fun c => !endsRoot c) (l := path)]
  rw [stepsFrom_name hroot, List.nil_append, stepsFrom_end _ hend]

end Path

namespace Bindings

/-- A path whose first step is a name. -/
theorem parse_of_rootName? {path root : String} (h : rootName? path = some root) :
    ∃ rest, Path.parse path = .name root :: rest := by
  unfold rootName? at h
  split at h
  · rename_i name rest hp
    cases h
    exact ⟨rest, hp⟩
  · cases h

/-- Entries answer for paths that start with a name. -/
theorem readOwn?_name {path root : String} {rest : List Path.Step}
    (h : Path.parse path = .name root :: rest) (b : Bindings) :
    b.readOwn? path = (b.entries.get? root).bind fun v => Path.read? v rest := by
  unfold readOwn?
  rw [h]
  cases hg : b.entries.get? root with
  | none => simp only [hg, Option.bind_none]
  | some v => simp only [hg, Option.bind_some]

/-- They do not answer for other paths. -/
theorem readOwn?_unnamed {path : String} (h : rootName? path = none) (b : Bindings) :
    b.readOwn? path = none := by
  unfold rootName? at h
  unfold readOwn?
  split
  · rename_i root rest hp
    rw [hp] at h
    cases h
  · rfl

end Bindings

namespace PathContent

variable (p : PathContent)

/-- The steps behind the first name. -/
def steps : List Path.Step := Path.stepsFrom (.name []) p.tail

theorem trim_path : Text.trim p.path = p.path := trim_of_not_blank fun _ => p.not_blank_of_mem

theorem parse_path : Path.parse (String.ofList p.path) = Path.nameStep p.root ++ p.steps := by
  unfold Path.parse
  rw [String.toList_ofList, trim_path]
  exact Path.stepsFrom_root fun _ => p.not_blank_of_mem

theorem parse_path_of_root (h : p.root ≠ []) :
    Path.parse (String.ofList p.path) = .name p.rootName :: p.steps := by
  rw [parse_path, Path.nameStep, List.isEmpty_eq_false_iff.mpr h]
  rfl

/-- The name that a path starts with, as lookups see it. -/
theorem rootName?_path (h : p.root ≠ []) :
    Bindings.rootName? (String.ofList p.path) = some p.rootName := by
  unfold Bindings.rootName?
  rw [p.parse_path_of_root h]

/-- A path without a first name starts with a bracket. -/
theorem rootName?_path_none (h : p.root = []) :
    Bindings.rootName? (String.ofList p.path) = none := by
  have htail : p.tail = p.path := by
    rw [← p.root_append_tail, h]
    rfl
  have hp := p.parse_path
  unfold steps at hp
  rw [h, htail] at hp
  unfold Bindings.rootName?
  rw [hp]
  cases hpath : p.path with
  | nil => exact absurd hpath p.path_ne
  | cons c cs =>
    have hstart := p.path_start c (by rw [hpath]; rfl)
    have hend := p.endsRoot_tail c (by rw [htail, hpath]; rfl)
    unfold endsRoot at hend
    have hc : c = '[' := by
      rcases Bool.or_eq_true_iff.mp hend with hd | hd
      · exact absurd (eq_of_beq hd) hstart.1
      · exact eq_of_beq hd
    subst hc
    obtain ⟨inner, steps, hs⟩ := Path.stepsFrom_bracket [] cs
    have heq : Path.nameStep [] ++ Path.stepsFrom (.name []) ('[' :: cs) =
        Path.bracketStep inner :: steps := hs
    rw [heq]
    split
    · rename_i hname
      exact absurd (List.cons.inj hname).1 (Path.bracketStep_ne_name inner _)
    · rfl

/-- Reading a path from the entries is reading the steps behind its first name from its entry. -/
theorem readOwn?_path (h : p.root ≠ []) (b : Bindings) :
    b.readOwn? (String.ofList p.path) =
      (b.entries.get? p.rootName).bind fun v => Path.read? v p.steps :=
  Bindings.readOwn?_name (p.parse_path_of_root h) b

end PathContent

/-! ## 3. The marker of a path -/

namespace Marker

/-- A marker with the property at a path in place of what it was to be bound to. -/
def aimed (m : Marker) (path : String) : Marker := { m with property := path, expression := none }

/-- Options do not look at what a marker is to be bound to. -/
theorem addOption_aimed (m : Marker) (path : String) (declared : Option ParamType)
    (key value : String) :
    (m.aimed path).addOption declared key value =
      (m.addOption declared key value).map fun found => (found.1.aimed path, found.2) := by
  unfold addOption
  split
  · split
    · rfl
    · rfl
  · rfl
  · split
    · rfl
    · rfl
  · split
    · rfl
    · rfl
  · rfl
  · rfl
  · rfl
  · rfl

theorem addOptions_aimed (path : String) (options : List (String × String)) (m : Marker)
    (declared : Option ParamType) :
    (m.aimed path).addOptions declared options =
      (m.addOptions declared options).map fun found => (found.1.aimed path, found.2) := by
  induction options generalizing m declared with
  | nil => rfl
  | cons option rest ih =>
    obtain ⟨key, value⟩ := option
    rw [addOptions, addOptions, addOption_aimed]
    cases m.addOption declared key value with
    | error reason => rfl
    | ok found => exact ih found.1 found.2

/-- What the options of a placeholder declare. -/
def declaredBy (placeholder : Placeholder) :
    Except Placeholder.Reason (Marker × Option ParamType) :=
  ({ jdbcType := placeholder.jdbcType } : Marker).addOptions none placeholder.options

/-- A marker for a property is what its options declare, aimed at the path. -/
theorem describe_property {content : List Char} {placeholder : Placeholder} {path : String}
    (hp : Placeholder.parse content = .ok placeholder)
    (ht : placeholder.target = .property path) (bindings : Bindings) :
    describe content bindings = (declaredBy placeholder).map fun found =>
      { found.1.aimed path with
        valueType := found.2.getD ((found.1.aimed path).inferredType bindings) } := by
  have ha := addOptions_aimed path placeholder.options { jdbcType := placeholder.jdbcType } none
  have hplain : ({ ofTarget placeholder.target with
      jdbcType := placeholder.jdbcType } : Marker) =
        ({ jdbcType := placeholder.jdbcType } : Marker).aimed path := by
    rw [ht]
    rfl
  unfold describe declaredBy
  simp only [hp, hplain, ha, bind, Except.bind]
  cases ({ jdbcType := placeholder.jdbcType } : Marker).addOptions none placeholder.options with
  | error reason => rfl
  | ok found => rfl

end Marker

/-- **The markers of two contents that differ in their paths alone** are aimed at their paths and
    agree in their direction, whatever bindings they are described with. -/
theorem PathContent.ofContent_congr {p p' : PathContent} (hr : p'.rest = p.rest) {m' : Marker}
    {b' : Bindings} (h : Marker.ofContent p'.text b' = .ok m') (b : Bindings) :
    ∃ m, Marker.ofContent p.text b = .ok m ∧ m.direction = m'.direction ∧
      m.property = String.ofList p.path ∧ m'.property = String.ofList p'.path ∧
      m'.expression = none := by
  have hd : Marker.describe p'.text b' = .ok m' := by
    unfold Marker.ofContent at h
    cases hd : Marker.describe p'.text b' with
    | ok m =>
      rw [hd] at h
      exact congrArg Except.ok (Except.ok.inj h)
    | error reason =>
      rw [hd] at h
      cases h
  cases hp : Placeholder.parse p'.text with
  | error reason =>
    unfold Marker.describe at hd
    simp only [hp, bind, Except.bind] at hd
    cases hd
  | ok placeholder =>
    obtain ⟨ht, hparse⟩ := parse_congr hr hp
    rw [Marker.describe_property hp ht] at hd
    have hdesc := Marker.describe_property hparse rfl b
    have hdecl : Marker.declaredBy { placeholder with target := .property (String.ofList p.path) } =
        Marker.declaredBy placeholder := rfl
    rw [hdecl] at hdesc
    cases hf : Marker.declaredBy placeholder with
    | error reason =>
      rw [hf] at hd
      cases hd
    | ok found =>
      rw [hf] at hd hdesc
      cases hd
      have hm : Marker.ofContent p.text b = .ok { found.1.aimed (String.ofList p.path) with
          valueType := found.2.getD ((found.1.aimed (String.ofList p.path)).inferredType b) } := by
        unfold Marker.ofContent
        rw [hdesc]
        rfl
      exact ⟨_, hm, rfl, rfl, rfl, rfl⟩

end SqlTemplate
