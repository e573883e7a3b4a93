import SqlTemplate.Proofs.Computed
import SqlTemplate.Proofs.PathText
import SqlTemplate.Proofs.PlaceholderGrammar

/-!
# The first name of a content

Three readers delimit the name that a content starts with: the renaming of loop variables, the
grammar of placeholders and the parsing of paths. They agree on it.

* `IsIdentifier`: what an identifier satisfies as a name that a content may start with;
* `exists_around_property`: where the property of a content that is accepted stands in it;
* `PathContent.exists_text`: such a content as a path with what stands around it;
* `renameLeading?_agrees`: a variable is renamed just when it is the first step of the path, and
  what is read of the renamed content differs in that step alone.
-/

namespace SqlTemplate

open Text (isBlank AllBlank)

/-! ## 1. Around a property -/

/-- **Where a property stands in a content that is accepted**, if everything that is skipped in
    front of it is blank: between blanks, up to a comma, a colon or the end. -/
theorem exists_around_property {content : List Char} {placeholder : Placeholder} {path : String}
    (hp : Placeholder.parse content = .ok placeholder) (ht : placeholder.target = .property path)
    (hlead : ∀ c ∈ content.takeWhile Placeholder.isSkipped, isBlank c = true) :
    ∃ lead rest, content = lead ++ path.toList ++ rest ∧ AllBlank lead ∧ path.toList ≠ [] ∧
      (∀ c ∈ path.toList, Placeholder.isTargetChar c = true) ∧
      ∀ c, (Text.trimStart rest).head? = some c → c = ',' ∨ c = ':' := by
  cases Placeholder.says_of_parse hp with
  | @content gap target type options _ hgap htarget htype hl =>
    rw [ht] at htarget
    cases htarget with
    | @property c cs hs hparen hchars hshown =>
      have hskip : (gap ++ (c :: cs ++ (type ++ options))).takeWhile Placeholder.isSkipped = gap :=
        takeWhile_stop hgap fun d hd => by
          cases hd
          exact hs
      rw [hskip] at hlead
      obtain ⟨front, back, hcut, hfront, hback⟩ : ∃ front back,
          c :: cs = front ++ Text.trim (c :: cs) ++ back ∧ AllBlank front ∧ AllBlank back :=
        Path.exists_trimBy isBlank (c :: cs)
      have hpath : (Placeholder.trimmed (c :: cs)).toList = Text.trim (c :: cs) :=
        String.toList_ofList
      have hne : Text.trim (c :: cs) ≠ [] := fun hn => hshown (Text.trim_eq_nil_iff.mp hn)
      refine ⟨gap ++ front, back ++ (type ++ options), ?_, ?_, ?_, ?_, fun d hd => ?_⟩
      · rw [hpath]
        conv_lhs => rw [hcut]
        simp only [List.append_assoc]
      · exact List.forall_mem_append.mpr ⟨hlead, hfront⟩
      · rw [hpath]
        exact hne
      · rw [hpath]
        exact fun d hd => hchars d (Path.mem_of_mem_trimBy hd)
      · have hstop : Text.trimStart (back ++ (type ++ options)) = type ++ options := by
          refine dropWhile_stop hback fun e he => ?_
          cases hb : isBlank e with
          | false => rfl
          | true =>
            have hn := Placeholder.not_target_of_rest htype hl he
            rw [PathContent.isTargetChar_of_blank hb] at hn
            cases hn
        rw [hstop] at hd
        have hn := Placeholder.not_target_of_rest htype hl hd
        unfold Placeholder.isTargetChar at hn
        rcases Bool.and_eq_false_iff.mp hn with hn | hn
        · exact .inl (bne_eq_false_iff_eq.mp hn)
        · exact .inr (bne_eq_false_iff_eq.mp hn)

/-! ## 2. Identifiers -/

/-- Whether a name is one that a content can start with and that opens no expression. Every
    identifier is: it holds no blank and none of `.`, `,`, `:`, `[`, and it starts neither with a
    parenthesis nor with a control. -/
structure IsIdentifier (name : String) : Prop where
  chars : IsVariable name
  start : ∀ c, name.toList.head? = some c → opensExpression c = false

/-- Letters, digits and underscores make an identifier. -/
theorem isIdentifier_of_isWordChar {name : String} (hne : name.toList ≠ [])
    (h : ∀ c ∈ name.toList, isWordChar c = true) : IsIdentifier name := by
  refine ⟨⟨hne, fun c hc => isNameChar_of_isWordChar (h c hc)⟩, fun c hc => ?_⟩
  have hw := h c (List.mem_of_mem_head? hc)
  unfold isWordChar at hw
  simp only [Bool.or_eq_true, Bool.and_eq_true, decide_eq_true_eq, beq_iff_eq] at hw
  have hskip : ¬c.toNat ≤ 0x20 := by omega
  have hparen : c ≠ '(' := by
    rintro rfl
    have hcode : '('.toNat = 40 := rfl
    omega
  unfold opensExpression Placeholder.isSkipped
  rw [beq_false_of_ne hparen, decide_eq_false hskip]
  rfl

/-- What renaming finds stands at the start of the content, behind blanks. -/
theorem head?_of_renameLeading? {name : String} (hn : IsVariable name) {suffix : Nat}
    {content renamed : List Char} (h : renameLeading? name suffix content = some renamed) :
    (Text.trimStart content).head? = name.toList.head? := by
  obtain ⟨hne, blanks, rest, rfl, hblanks, -⟩ := Layer.renameLeading?_some h
  cases hname : name.toList with
  | nil => exact absurd hname hne
  | cons c cs =>
    have hc : isBlank c = false :=
      (Path.parts_of_isNameChar (hn.2 c (by rw [hname]; exact List.mem_cons_self))).2.2
    have hcut : Text.trimStart (blanks ++ (c :: cs ++ rest)) = c :: cs ++ rest :=
      dropWhile_stop hblanks fun d hd => by
        cases hd
        exact hc
    rw [hcut]
    rfl

/-- A content whose property starts like an expression starts with no identifier, neither for
    renaming nor for the parsing of paths. -/
theorem not_root_of_opensExpression {lead path : List Char} {c : Char} {name : String}
    (hn : IsIdentifier name) (hlead : AllBlank lead) (hb : ∀ d ∈ path, isBlank d = false)
    (hc : path.head? = some c) (ho : opensExpression c = true) (suffix : Nat) (rest : List Char) :
    renameLeading? name suffix (lead ++ path ++ rest) = none ∧
      (Path.stepsFrom (.name []) path).head? ≠ some (.name name) := by
  obtain ⟨path, rfl⟩ := List.head?_eq_some_iff.mp hc
  have hhead : name.toList.head? ≠ some c := fun h => by
    rw [hn.start c h] at ho
    cases ho
  refine ⟨?_, fun h => ?_⟩
  · cases hr : renameLeading? name suffix (lead ++ (c :: path) ++ rest) with
    | none => rfl
    | some renamed =>
      have hcut : Text.trimStart (lead ++ (c :: path) ++ rest) = c :: path ++ rest := by
        rw [List.append_assoc]
        exact dropWhile_stop hlead fun d hd => by
          cases hd
          exact hb c List.mem_cons_self
      have hstart := head?_of_renameLeading? hn.chars hr
      rw [hcut] at hstart
      exact absurd hstart.symm hhead
  · have hroot : (!endsRoot c) = true := by
      rw [Bool.not_eq_true']
      cases he : endsRoot c with
      | false => rfl
      | true =>
        rcases Bool.or_eq_true_iff.mp he with he | he
        · rw [eq_of_beq he] at ho
          cases ho
        · rw [eq_of_beq he] at ho
          cases ho
    have htake : (c :: path).takeWhile (fun c => !endsRoot c) =
        c :: path.takeWhile fun c => !endsRoot c := List.takeWhile_cons_of_pos hroot
    rw [Path.stepsFrom_root hb, htake] at h
    have hs : Path.Step.name (String.ofList (c :: path.takeWhile fun c => !endsRoot c)) =
        .name name := Option.some.inj h
    refine hhead ?_
    rw [← Path.Step.name.inj hs, String.toList_ofList]
    rfl

/-! ## 3. Agreement -/

/-- A content with a path in it that starts like no expression. -/
theorem PathContent.exists_text {content : List Char} {placeholder : Placeholder} {path : String}
    (hp : Placeholder.parse content = .ok placeholder) (ht : placeholder.target = .property path)
    (hb : ∀ c ∈ path.toList, isBlank c = false) (hdot : path.toList.head? ≠ some '.')
    (ho : ∀ c, path.toList.head? = some c → opensExpression c = false)
    (hlead : ∀ c ∈ content.takeWhile Placeholder.isSkipped, isBlank c = true) :
    ∃ p : PathContent, p.text = content ∧ p.path = path.toList := by
  obtain ⟨lead, rest, hcontent, hblank, hne, htarget, hrest⟩ := exists_around_property hp ht hlead
  refine ⟨⟨lead, path.toList, rest, hblank, fun c hc => ?_, hne, fun c hc => ?_, hrest⟩,
    hcontent.symm, rfl⟩
  · have hpart := htarget c hc
    unfold Placeholder.isTargetChar at hpart
    rw [Bool.and_eq_true, bne_iff_ne, bne_iff_ne] at hpart
    unfold isPathChar
    rw [hb c hc, beq_false_of_ne hpart.1, beq_false_of_ne hpart.2]
    rfl
  · obtain ⟨hparen, hskip⟩ := Bool.or_eq_false_iff.mp (ho c hc)
    refine ⟨fun e => hdot ?_, beq_eq_false_iff_ne.mp hparen, hskip⟩
    rw [hc, e]

/-- The first step of a path is a name just when it is the one that the path starts with. -/
theorem PathContent.head?_steps (p : PathContent) {name : String} (hne : name.toList ≠ []) :
    (Path.parse (String.ofList p.path)).head? = some (.name name) ↔ name = p.rootName := by
  by_cases hr : p.root = []
  · have hnone := p.rootName?_path_none hr
    have hempty : name ≠ p.rootName := by
      rintro rfl
      exact hne (by rw [rootName, String.toList_ofList, hr])
    refine ⟨fun h => ?_, fun h => absurd h hempty⟩
    obtain ⟨steps, hs⟩ := List.head?_eq_some_iff.mp h
    unfold Bindings.rootName? at hnone
    rw [hs] at hnone
    cases hnone
  · rw [p.parse_path_of_root hr]
    constructor
    · intro h
      exact (Path.Step.name.inj (Option.some.inj h)).symm
    · rintro rfl
      rfl

/-- **A renamed content says what the content says**, for a path whose first step alone is another
    one. -/
theorem PathContent.parse_renamed (p : PathContent) {placeholder : Placeholder} {name : String}
    (hp : Placeholder.parse p.text = .ok placeholder) (hn : IsVariable name)
    (hroot : name = p.rootName) (suffix : Nat) : ∃ path' steps,
      Placeholder.parse (p.renamed hn suffix).text =
          .ok { placeholder with target := .property path' } ∧
        Path.parse (String.ofList p.path) = .name name :: steps ∧
        Path.parse path' = .name (elementName name suffix) :: steps := by
  have hne : p.root ≠ [] := fun h => hn.1 (by rw [hroot, rootName, String.toList_ofList, h])
  have hne' : (p.renamed hn suffix).root ≠ [] := by
    rw [root_renamed, elementName_toList]
    exact List.cons_ne_nil _ _
  have hsame : p.rest = (p.renamed hn suffix).rest := rfl
  have hsteps : (p.renamed hn suffix).steps = p.steps := by
    unfold steps
    rw [tail_renamed]
  refine ⟨_, p.steps, (parse_congr hsame hp).2, ?_, ?_⟩
  · rw [p.parse_path_of_root hne, hroot]
  · rw [(p.renamed hn suffix).parse_path_of_root hne', rootName_renamed, hsteps]

/-- **Renaming, placeholders and paths agree on the first name of a content.** An identifier is
    renamed just when it is the first step of the path, if the path holds no blanks and does not
    start with a dot, and nothing but blanks is skipped in front of it; and then the renamed content
    says the same, for the path with the name of the element as its first step and the other steps
    as they were. A content that asks for an expression is left alone. -/
theorem renameLeading?_agrees {content : List Char} {placeholder : Placeholder} {name : String}
    (hp : Placeholder.parse content = .ok placeholder) (hn : IsIdentifier name) (suffix : Nat) :
    (∀ path, placeholder.target = .property path → (∀ c ∈ path.toList, isBlank c = false) →
      path.toList.head? ≠ some '.' →
      (∀ c ∈ content.takeWhile Placeholder.isSkipped, isBlank c = true) →
      ((renameLeading? name suffix content).isSome = true ↔
        (Path.parse path).head? = some (.name name)) ∧
      ∀ renamed, renameLeading? name suffix content = some renamed → ∃ path' steps,
        Placeholder.parse renamed = .ok { placeholder with target := .property path' } ∧
          Path.parse path = .name name :: steps ∧
          Path.parse path' = .name (elementName name suffix) :: steps) ∧
    ∀ text, placeholder.target = .expression text → renameLeading? name suffix content = none := by
  refine ⟨fun path ht hb hdot hlead => ?_, fun text ht =>
    renameLeading?_computed hn.start suffix ⟨placeholder, hp, ht⟩⟩
  by_cases ho : ∀ c, path.toList.head? = some c → opensExpression c = false
  · obtain ⟨p, rfl, hpath⟩ := PathContent.exists_text hp ht hb hdot ho hlead
    have hparse : Path.parse path = Path.parse (String.ofList p.path) := by
      rw [hpath, String.ofList_toList]
    rw [hparse, p.head?_steps hn.chars.1, p.renameLeading?_text hn.chars]
    by_cases heq : name = p.rootName
    · rw [if_pos heq]
      refine ⟨⟨fun _ => heq, fun _ => rfl⟩, fun renamed hr => ?_⟩
      obtain rfl : (p.renamed hn.chars suffix).text = renamed := by
        rw [PathContent.text_renamed]
        exact Option.some.inj hr
      exact p.parse_renamed hp hn.chars heq suffix
    · rw [if_neg heq]
      refine ⟨⟨fun h => ?_, fun h => absurd h heq⟩, fun renamed hr => ?_⟩
      · cases h
      · cases hr
  · obtain ⟨c, hc⟩ := not_forall.mp ho
    obtain ⟨hhead, hopens⟩ := Classical.not_imp.mp hc
    obtain ⟨lead, rest, rfl, hblank, -⟩ := exists_around_property hp ht hlead
    obtain ⟨hnone, hstep⟩ := not_root_of_opensExpression hn hblank hb hhead
      (eq_true_of_ne_false hopens) suffix rest
    rw [hnone, Path.parse_eq]
    refine ⟨⟨fun h => ?_, fun h => absurd h hstep⟩, fun renamed hr => ?_⟩
    · cases h
    · cases hr

/-- A content with a variable behind a blank, a key that holds a dot, a type and an option. -/
def itemContent : List Char := " item.lines['a.b'] : VARCHAR , mode = IN".toList

/-- What it says. -/
def itemPlaceholder : Placeholder where
  target := .property "item.lines['a.b']"
  jdbcType := some "VARCHAR"
  options := [("mode", "IN")]

/-- It names the item of a loop, and says the same of the third element. -/
theorem itemContent_agrees :
    (Placeholder.parse itemContent = .ok itemPlaceholder ∧ IsIdentifier "item" ∧
      (∀ c ∈ "item.lines['a.b']".toList, isBlank c = false) ∧
      "item.lines['a.b']".toList.head? ≠ some '.' ∧
      ∀ c ∈ itemContent.takeWhile Placeholder.isSkipped, isBlank c = true) ∧
    ∃ renamed path' steps, renameLeading? "item" 3 itemContent = some renamed ∧
      Placeholder.parse renamed = .ok { itemPlaceholder with target := .property path' } ∧
      Path.parse path' = .name (elementName "item" 3) :: steps := by
  have hp : Placeholder.parse itemContent = .ok itemPlaceholder := by decide +kernel
  have hn : IsIdentifier "item" :=
    isIdentifier_of_isWordChar (by decide +kernel) (List.all_eq_true.mp (by decide +kernel))
  have hb : ∀ c ∈ "item.lines['a.b']".toList, isBlank c = false := by
    have hall : "item.lines['a.b']".toList.all (fun c => !isBlank c) = true := by decide +kernel
    intro c hc
    rw [← Bool.not_eq_true']
    exact List.all_eq_true.mp hall c hc
  have hdot : "item.lines['a.b']".toList.head? ≠ some '.' := by decide +kernel
  have hlead : ∀ c ∈ itemContent.takeWhile Placeholder.isSkipped, isBlank c = true :=
    List.all_eq_true.mp (by decide +kernel)
  refine ⟨⟨hp, hn, hb, hdot, hlead⟩, ?_⟩
  obtain ⟨hiff, hsays⟩ := (renameLeading?_agrees hp hn 3).1 _ rfl hb hdot hlead
  obtain ⟨renamed, hr⟩ := Option.isSome_iff_exists.mp (hiff.mpr (by decide +kernel))
  obtain ⟨path', steps, hparse, -, hsteps⟩ := hsays renamed hr
  exact ⟨renamed, path', steps, hr, hparse, hsteps⟩

end SqlTemplate
