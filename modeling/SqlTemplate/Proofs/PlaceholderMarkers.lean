import SqlTemplate.Proofs.Finalize
import SqlTemplate.Proofs.PlaceholderGrammar

/-!
# The markers of contents

What the options of a placeholder make of its marker, and the marker of every content.

* `Placeholder.Fits`: the options that a marker takes;
* `Marker.addOptions_ok`: options are taken just when each of them fits, and of two options with one
  key the later one counts;
* `Placeholder.parse_print`: what has been printed is read back;
* `Marker.ofContent_grammar`: a content has a marker just when the grammar derives it and its options
  fit, every field of the marker is what the placeholder says, and every other content is refused
  by its own name;
* `Marker.SameUnless`: how the markers of one content for two bindings can differ.
-/

namespace SqlTemplate

open Text (AllBlank)

/-! ## 1. The last option with a key -/

/-- The value of the last option with a key. -/
def lastOption? (key : String) (options : List (String × String)) : Option String :=
  options.reverse.lookup key

theorem lastOption?_cons (key : String) (option : String × String)
    (options : List (String × String)) : lastOption? key (option :: options) =
      (lastOption? key options).or (if key = option.1 then some option.2 else none) := by
  unfold lastOption?
  rw [List.reverse_cons, List.lookup_append]
  congr 1
  obtain ⟨name, value⟩ := option
  by_cases h : key = name
  · subst h
    rw [if_pos rfl, List.lookup_cons_self]
  · rw [if_neg h, List.lookup_cons, beq_false_of_ne h]
    rfl

section Given

variable {α : Type}

/-- What the last option with a key says; `absent` when there is no such option. -/
def given (key : String) (absent : α) (read : String → α) (options : List (String × String)) : α :=
  (lastOption? key options).elim absent read

/-- The first option says what counts if no later one has its key. -/
theorem given_cons (key : String) (absent : α) (read : String → α) (option : String × String)
    (options : List (String × String)) : given key absent read (option :: options) =
      given key (if key = option.1 then read option.2 else absent) read options := by
  unfold given
  rw [lastOption?_cons]
  cases lastOption? key options with
  | some value => rfl
  | none =>
    by_cases h : key = option.1
    · rw [if_pos h, if_pos h]
      rfl
    · rw [if_neg h, if_neg h]
      rfl

end Given

/-! ## 2. Options that fit -/

namespace Placeholder

/-- An option that a marker takes: its key is known, and a type, a direction or a scale is one. -/
structure Fits (key value : String) : Prop where
  known : key ∈ optionKeys
  javaType : key = "javaType" → ∃ type, ParamType.read value = .ok type
  mode : key = "mode" → ∃ direction, Direction.read value = .ok direction
  numericScale : key = "numericScale" →
    ∃ scale, Text.readBounded? Marker.scaleBound value.toList = some scale

/-- Most keys take any value. -/
theorem Fits.free {key : String} (hk : key ∈ optionKeys) (hj : key ≠ "javaType")
    (hm : key ≠ "mode") (hn : key ≠ "numericScale") (value : String) : Fits key value :=
  ⟨hk, fun h => absurd h hj, fun h => absurd h hm, fun h => absurd h hn⟩

end Placeholder

open Placeholder (Fits)

namespace Marker

/-- A marker with everything that a list of options says. -/
def configured (m : Marker) (options : List (String × String)) : Marker :=
  { m with
    jdbcType := given "jdbcType" m.jdbcType some options
    direction := given "mode" m.direction (fun v => (Direction.read v).toOption.getD .input) options
    numericScale := given "numericScale" m.numericScale
      (fun v => Text.readBounded? scaleBound v.toList) options
    resultMap := given "resultMap" m.resultMap some options
    typeHandler := given "typeHandler" m.typeHandler some options
    jdbcTypeName := given "jdbcTypeName" m.jdbcTypeName some options }

/-- The type that a list of options declares. -/
def declaredType (declared : Option ParamType) (options : List (String × String)) :
    Option ParamType :=
  given "javaType" declared (fun v => (ParamType.read v).toOption) options

/-- An option that fits sets the field of its key. -/
theorem addOption_of_fits (m : Marker) (declared : Option ParamType) {key value : String}
    (h : Fits key value) : m.addOption declared key value =
      .ok (m.configured [(key, value)], declaredType declared [(key, value)]) := by
  have hkey := h.known
  simp only [Placeholder.optionKeys, List.mem_cons, List.not_mem_nil, or_false] at hkey
  rcases hkey with rfl | rfl | rfl | rfl | rfl | rfl | rfl
  · obtain ⟨type, ht⟩ := h.javaType rfl
    have hd : declaredType declared [("javaType", value)] = some type := by
      show (ParamType.read value).toOption = _
      rw [ht]
      rfl
    rw [hd, addOption, ht]
    rfl
  · rfl
  · obtain ⟨direction, hd⟩ := h.mode rfl
    have hm : m.configured [("mode", value)] = { m with direction } := by
      show { m with direction := (Direction.read value).toOption.getD .input } = _
      rw [hd]
      rfl
    rw [hm, addOption, hd]
    rfl
  · obtain ⟨scale, hs⟩ := h.numericScale rfl
    have hm : m.configured [("numericScale", value)] = { m with numericScale := some scale } := by
      show { m with numericScale := Text.readBounded? scaleBound value.toList } = _
      rw [hs]
    rw [hm, addOption, hs]
    rfl
  · rfl
  · rfl
  · rfl

/-- An option that is taken fits. -/
theorem fits_of_addOption {m : Marker} {declared : Option ParamType} {key value : String}
    {found : Marker × Option ParamType} (h : m.addOption declared key value = .ok found) :
    Fits key value := by
  unfold addOption at h
  split at h
  · split at h
    · rename_i type ht
      exact ⟨by decide, fun _ => ⟨type, ht⟩, fun e => absurd e (by decide),
        fun e => absurd e (by decide)⟩
    · cases h
  · exact .free (by decide) (by decide) (by decide) (by decide) value
  · split at h
    · rename_i direction hd
      exact ⟨by decide, fun e => absurd e (by decide), fun _ => ⟨direction, hd⟩,
        fun e => absurd e (by decide)⟩
    · cases h
  · split at h
    · rename_i scale hs
      exact ⟨by decide, fun e => absurd e (by decide), fun e => absurd e (by decide),
        fun _ => ⟨scale, hs⟩⟩
    · cases h
  · exact .free (by decide) (by decide) (by decide) (by decide) value
  · exact .free (by decide) (by decide) (by decide) (by decide) value
  · exact .free (by decide) (by decide) (by decide) (by decide) value
  · cases h

theorem configured_cons (m : Marker) (option : String × String) (options : List (String × String)) :
    m.configured (option :: options) = (m.configured [option]).configured options := by
  simp only [configured, given_cons]
  rfl

theorem declaredType_cons (declared : Option ParamType) (option : String × String)
    (options : List (String × String)) : declaredType declared (option :: options) =
      declaredType (declaredType declared [option]) options := by
  simp only [declaredType, given_cons]
  rfl

/-- **Options are taken just when each of them fits**, and they say together what the last option
    with each key says. -/
theorem addOptions_ok {m : Marker} {declared : Option ParamType}
    {options : List (String × String)} {found : Marker × Option ParamType} :
    m.addOptions declared options = .ok found ↔
      (∀ option ∈ options, Fits option.1 option.2) ∧
        found = (m.configured options, declaredType declared options) := by
  induction options generalizing m declared with
  | nil =>
    constructor
    · intro h
      cases h
      exact ⟨fun _ hm => absurd hm List.not_mem_nil, rfl⟩
    · rintro ⟨-, rfl⟩
      rfl
  | cons option options ih =>
    obtain ⟨key, value⟩ := option
    rw [configured_cons, declaredType_cons, List.forall_mem_cons, addOptions]
    constructor
    · intro h
      cases ha : m.addOption declared key value with
      | error reason =>
        rw [ha] at h
        cases h
      | ok first =>
        have hfits := fits_of_addOption ha
        rw [addOption_of_fits m declared hfits] at h
        obtain ⟨hrest, rfl⟩ := ih.mp h
        exact ⟨⟨hfits, hrest⟩, rfl⟩
    · rintro ⟨⟨hfits, hrest⟩, rfl⟩
      rw [addOption_of_fits m declared hfits]
      exact ih.mpr ⟨hrest, rfl⟩

end Marker

/-! ## 3. The marker of a placeholder -/

namespace Placeholder

/-- The marker of a placeholder: every field is what the last option with its key says, or else the
    default; the type that is declared goes before the one that the bindings tell. -/
def marker (p : Placeholder) (b : Bindings) : Marker :=
  let plain : Marker := {
    property := match p.target with
      | .property path => path
      | .expression _ => ""
    expression := match p.target with
      | .property _ => none
      | .expression text => some text
    jdbcType := given "jdbcType" p.jdbcType some p.options
    direction := given "mode" .input (fun v => (Direction.read v).toOption.getD .input) p.options
    numericScale := given "numericScale" none
      (fun v => Text.readBounded? Marker.scaleBound v.toList) p.options
    resultMap := given "resultMap" none some p.options
    typeHandler := given "typeHandler" none some p.options
    jdbcTypeName := given "jdbcTypeName" none some p.options }
  let declared := given "javaType" none (fun v => (ParamType.read v).toOption) p.options
  { plain with valueType := declared.getD (plain.inferredType b) }

/-- A placeholder whose options a marker takes. -/
def IsTaken (p : Placeholder) : Prop := ∀ option ∈ p.options, Fits option.1 option.2

theorem marker_eq (p : Placeholder) (b : Bindings) :
    p.marker b =
      let m := ({ Marker.ofTarget p.target with jdbcType := p.jdbcType } : Marker).configured p.options
      { m with valueType := (Marker.declaredType none p.options).getD (m.inferredType b) } := by
  obtain ⟨target, jdbcType, options⟩ := p
  cases target with
  | property path => rfl
  | expression text => rfl

end Placeholder

/-- **The contents that describe a marker**, and the marker that they describe. -/
theorem Marker.describe_ok {content : List Char} {b : Bindings} {m : Marker} :
    Marker.describe content b = .ok m ↔
      ∃ p : Placeholder, Placeholder.Says content p ∧ p.IsTaken ∧ m = p.marker b := by
  unfold Marker.describe
  constructor
  · intro h
    cases hp : Placeholder.parse content with
    | error reason =>
      simp only [hp, bind, Except.bind] at h
      cases h
    | ok p =>
      simp only [hp, bind, Except.bind] at h
      cases ha : ({ Marker.ofTarget p.target with jdbcType := p.jdbcType } : Marker).addOptions none
          p.options with
      | error reason =>
        rw [ha] at h
        cases h
      | ok found =>
        rw [ha] at h
        cases h
        obtain ⟨hfits, rfl⟩ := Marker.addOptions_ok.mp ha
        exact ⟨p, Placeholder.says_of_parse hp, hfits, p.marker_eq b |>.symm⟩
  · rintro ⟨p, hs, hfits, rfl⟩
    have ha := Marker.addOptions_ok.mpr
      ⟨hfits, Eq.refl (({ Marker.ofTarget p.target with jdbcType := p.jdbcType } : Marker).configured
        p.options, Marker.declaredType none p.options)⟩
    simp only [hs.parse, ha, bind, Except.bind]
    rw [p.marker_eq b]
    rfl

/-! ## 4. Printing -/

namespace Placeholder

/-- The text of a target. -/
def printTarget : Target → List Char
  | .property path => path.toList
  | .expression text => '(' :: (text.toList ++ [')'])

/-- The text that declares a type. -/
def printType : Option String → List Char
  | none => []
  | some name => ':' :: name.toList

/-- The text of a list of options. -/
def printOptions (options : List (String × String)) : List Char :=
  options.flatMap fun option => ',' :: (option.1.toList ++ '=' :: option.2.toList)

/-- A content without any gap that says what a placeholder asks for. -/
def print (p : Placeholder) : List Char :=
  printTarget p.target ++ (printType p.jdbcType ++ printOptions p.options)

/-- A text with no blank end. -/
def IsTrimmed (text : String) : Prop := trimmed text.toList = text

/-- A target whose text is read as it is. -/
def PlainTarget : Target → Prop
  | .property path => IsTrimmed path ∧ ¬AllBlank path.toList ∧
      (∀ c ∈ path.toList, isTargetChar c = true) ∧
        ∀ c, path.toList.head? = some c → isSkipped c = false ∧ c ≠ '('
  | .expression text => IsTrimmed text ∧ ¬AllBlank text.toList ∧ Answered 0 text.toList

/-- An option whose text is read as it is. -/
structure PlainOption (option : String × String) : Prop where
  key_trimmed : IsTrimmed option.1
  value_trimmed : IsTrimmed option.2
  key_comma : ',' ∉ option.1.toList
  key_equals : '=' ∉ option.1.toList
  value_comma : ',' ∉ option.2.toList

/-- A placeholder that has a content: none of its texts holds what would end it or has a blank end,
    and neither its target nor its type is blank. -/
structure IsPlain (p : Placeholder) : Prop where
  target : PlainTarget p.target
  type : ∀ name, p.jdbcType = some name →
    IsTrimmed name ∧ ¬AllBlank name.toList ∧ ',' ∉ name.toList
  options : ∀ option ∈ p.options, PlainOption option

theorem targets_print {t : Target} (h : PlainTarget t) : Targets (printTarget t) t := by
  cases t with
  | property path =>
    obtain ⟨htrim, hshown, hchars, hhead⟩ := h
    have hp : printTarget (.property path) = path.toList := rfl
    rw [hp]
    cases hcs : path.toList with
    | nil =>
      rw [hcs] at hshown
      exact absurd (fun _ hm => absurd hm List.not_mem_nil) hshown
    | cons c cs =>
      have hc := hhead c (by rw [hcs]; rfl)
      have htrim : trimmed (c :: cs) = path := hcs ▸ htrim
      rw [hcs] at hchars hshown
      have ht := Targets.property hc.1 hc.2 hchars hshown
      rwa [htrim] at ht
  | expression text =>
    obtain ⟨htrim, hshown, ha⟩ := h
    have hgap : IsGap [] := fun _ hm => absurd hm List.not_mem_nil
    have ht := Targets.computed ha hshown hgap
    have htrim : trimmed text.toList = text := htrim
    rwa [htrim] at ht

theorem types_print {jdbcType : Option String} (h : ∀ name, jdbcType = some name →
    IsTrimmed name ∧ ¬AllBlank name.toList ∧ ',' ∉ name.toList) :
    Types (printType jdbcType) jdbcType := by
  cases jdbcType with
  | none => exact .missing
  | some name =>
    obtain ⟨htrim, hshown, hcomma⟩ := h name rfl
    have ht := Types.named hcomma hshown
    have htrim : trimmed name.toList = name := htrim
    rwa [htrim] at ht

theorem lists_print {options : List (String × String)} (h : ∀ option ∈ options, PlainOption option) :
    Lists (printOptions options) options := by
  induction options with
  | nil => exact .nil
  | cons option options ih =>
    obtain ⟨key, value⟩ := option
    obtain ⟨hkey, hvalue, hcomma, hequals, hvcomma⟩ := h (key, value) List.mem_cons_self
    have hl := Lists.pair hcomma hequals hvcomma (ih fun o hm => h o (List.mem_cons_of_mem _ hm))
    have hkey : trimmed key.toList = key := hkey
    have hvalue : trimmed value.toList = value := hvalue
    rw [hkey, hvalue] at hl
    exact hl

/-- What a placeholder is printed as says what it asks for. -/
theorem says_print {p : Placeholder} (h : p.IsPlain) : Says p.print p :=
  have hlead : IsGap [] := fun _ hm => absurd hm List.not_mem_nil
  .content hlead (targets_print h.target) (types_print h.type) (lists_print h.options)

/-- **What has been printed is read back.** -/
theorem parse_print {p : Placeholder} (h : p.IsPlain) : parse p.print = .ok p :=
  (says_print h).parse

end Placeholder

/-! ## 5. Contents and their markers -/

namespace Marker

/-- A content describes a marker or is refused by its own name. -/
theorem ofContent_ok {content : List Char} {b : Bindings} {m : Marker} :
    ofContent content b = .ok m ↔
      ∃ p : Placeholder, Placeholder.Says content p ∧ p.IsTaken ∧ m = p.marker b := by
  rw [← describe_ok]
  unfold ofContent
  cases describe content b with
  | ok found => exact ⟨fun h => congrArg Except.ok (Except.ok.inj h),
      fun h => congrArg Except.ok (Except.ok.inj h)⟩
  | error reason =>
    constructor
    · intro h
      cases h
    · intro h
      cases h

/-- **The parser of placeholder contents accepts exactly its grammar and reads it back.** Whatever
    the bindings are, a content has a marker just when the grammar derives it with options that a
    marker takes, and the marker is what the placeholder says; every other content is refused by its
    own name. A content says one thing at most, and what has been printed says what was printed. -/
theorem ofContent_grammar (b : Bindings) :
    (∀ content m, ofContent content b = .ok m ↔
      ∃ p : Placeholder, Placeholder.Says content p ∧ p.IsTaken ∧ m = p.marker b) ∧
    (∀ content, (¬∃ p : Placeholder, Placeholder.Says content p ∧ p.IsTaken) →
      ∃ reason, ofContent content b = .error (.placeholder (String.ofList content) reason)) ∧
    (∀ content p q, Placeholder.Says content p → Placeholder.Says content q → p = q) ∧
    ∀ p : Placeholder, p.IsPlain → Placeholder.parse p.print = .ok p ∧
      (p.IsTaken → ofContent p.print b = .ok (p.marker b)) := by
  refine ⟨fun content m => ofContent_ok, fun content hn => ?_, fun content p q hp hq => hp.unique hq,
    fun p hp => ⟨Placeholder.parse_print hp, fun ht =>
      ofContent_ok.mpr ⟨p, Placeholder.says_print hp, ht, rfl⟩⟩⟩
  cases hd : describe content b with
  | ok m =>
    obtain ⟨p, hs, ht, -⟩ := describe_ok.mp hd
    exact absurd ⟨p, hs, ht⟩ hn
  | error reason =>
    refine ⟨reason, ?_⟩
    unfold ofContent
    rw [hd]

/-- A content with nested parentheses, blanks, an empty option and a key that is given twice. -/
def nestedContent : List Char :=
  " (f(a, (b)) ) : NUM ,, mode = OUT ,numericScale=+7,mode=inout,".toList

/-- What the content says. -/
def nestedPlaceholder : Placeholder where
  target := .expression "f(a, (b))"
  jdbcType := some "NUM"
  options := [("mode", "OUT"), ("numericScale", "+7"), ("mode", "inout")]

theorem ofContent_grammar_nested : Placeholder.Says nestedContent nestedPlaceholder ∧
    ofContent nestedContent .empty = .ok {
      expression := some "f(a, (b))"
      jdbcType := some "NUM"
      direction := .inputOutput
      numericScale := some 7 } := by
  have hs : Placeholder.Says nestedContent nestedPlaceholder :=
    Placeholder.says_of_parse (by decide +kernel)
  refine ⟨hs, ((ofContent_grammar .empty).1 nestedContent _).mpr
    ⟨nestedPlaceholder, hs, ?_, by decide +kernel⟩⟩
  refine List.forall_mem_cons.mpr ⟨?_, List.forall_mem_cons.mpr ⟨?_, List.forall_mem_cons.mpr
    ⟨?_, fun _ hm => absurd hm List.not_mem_nil⟩⟩⟩
  · exact ⟨by decide, fun h => absurd h (by decide), fun _ => ⟨.output, by decide +kernel⟩,
      fun h => absurd h (by decide)⟩
  · exact ⟨by decide, fun h => absurd h (by decide), fun h => absurd h (by decide),
      fun _ => ⟨7, by decide +kernel⟩⟩
  · exact ⟨by decide, fun h => absurd h (by decide), fun _ => ⟨.inputOutput, by decide +kernel⟩,
      fun h => absurd h (by decide)⟩

end Marker

/-! ## 6. Markers for two bindings -/

/-- A placeholder has one marker for bindings that tell the same type. -/
theorem Placeholder.marker_congr {p : Placeholder} {b b' : Bindings}
    (h : (p.marker b).inferredType b' = (p.marker b).inferredType b) : p.marker b' = p.marker b :=
  congrArg (fun type => { p.marker b with
    valueType := (given "javaType" none (fun v => (ParamType.read v).toOption) p.options).getD type }) h

/-- Whether two markers are the same, but for the type of one that is exempt. -/
def Marker.SameUnless (exempt : Marker → Prop) (m m' : Marker) : Prop :=
  m'.untyped = m.untyped ∧ (¬exempt m → m' = m)

section SameUnless

variable {exempt : Marker → Prop}

theorem Marker.SameUnless.refl (m : Marker) : m.SameUnless exempt m := ⟨rfl, fun _ => rfl⟩

/-- **Bindings that tell the same types but for exempt markers** make the same markers of all
    contents but for those. -/
theorem ofContents_sameUnless {b b' : Bindings}
    (hb : ∀ m : Marker, ¬exempt m → m.inferredType b' = m.inferredType b)
    {contents : List (List Char)} {ms : List Marker} (h : ofContents b contents = .ok ms) :
    ∃ ms', ofContents b' contents = .ok ms' ∧ List.Forall₂ (Marker.SameUnless exempt) ms ms' := by
  induction contents generalizing ms with
  | nil =>
    cases h
    exact ⟨[], rfl, .nil⟩
  | cons content rest ih =>
    obtain ⟨m, others, hm, ho, rfl⟩ := ofContents_cons_ok h
    obtain ⟨others', ho', hall⟩ := ih ho
    obtain ⟨p, hs, ht, rfl⟩ := Marker.ofContent_ok.mp hm
    have hm' : Marker.ofContent content b' = .ok (p.marker b') :=
      Marker.ofContent_ok.mpr ⟨p, hs, ht, rfl⟩
    have hsame : (p.marker b).SameUnless exempt (p.marker b') :=
      ⟨rfl, fun hx => Placeholder.marker_congr (hb _ hx)⟩
    refine ⟨p.marker b' :: others', ?_, .cons hsame hall⟩
    rw [ofContents_cons, hm', ho']
    rfl

/-- Where no marker is exempt, the markers are the same. -/
theorem eq_of_sameUnless {ms ms' : List Marker}
    (h : List.Forall₂ (Marker.SameUnless exempt) ms ms') (hx : ∀ m ∈ ms, ¬exempt m) : ms' = ms := by
  induction h with
  | nil => rfl
  | cons hm _ ih =>
    rw [List.forall_mem_cons] at hx
    rw [hm.2 hx.1, ih hx.2]

theorem untyped_of_sameUnless {ms ms' : List Marker}
    (h : List.Forall₂ (Marker.SameUnless exempt) ms ms') :
    ms'.map Marker.untyped = ms.map Marker.untyped := by
  induction h with
  | nil => rfl
  | cons hm _ ih => rw [List.map_cons, List.map_cons, hm.1, ih]

end SameUnless

end SqlTemplate
