import SqlTemplate.Proofs.Lockstep
import SqlTemplate.Proofs.ParameterAlias

/-!
# Traces of substitutions

A substitution without a text is still not without effects: what it appends is empty, but there is
one more fragment, and the alias of the parameter stays in the bindings. A render goes on in the same
way in spite of that.

* `Near`: scopes that differ in such traces alone;
* `Alike`: outcomes that differ in them alone;
* `Steady`: steps that go on alike from all scopes that are near;
* `Template.apply_steady`: rendering a template is such a step.
-/

namespace SqlTemplate

variable {e : Option Value} {engine : Engine}

/-! ## 1. Empty fragments -/

/-- Whether there is anything in a fragment. -/
def isShown (fragment : String) : Bool := !fragment.isEmpty

theorem Layer.renameFragment_empty (item index : Option String) (suffix : Nat) :
    renameFragment item index suffix "" = "" := by
  unfold renameFragment Delimiters.replace Delimiters.scan Delimiters.pieces
  rw [String.toList_empty, Delimiters.piecesFrom_nil]
  rfl

/-- An empty fragment goes through layers as it is, and they do not take notice of it. -/
theorem Layer.passThrough_empty (layers : List Layer) :
    passThrough layers [""] = (layers, [""]) := by
  induction layers with
  | nil => rfl
  | cons layer rest ih =>
    have hpass : layer.pass "" = (layer, [""]) := by
      cases layer with
      | separator text applied =>
        have hblank : (applied || Text.isBlankText "") = true := Bool.or_true applied
        exact if_pos hblank
      | «renaming» item index suffix =>
        show (Layer.renaming item index suffix, [renameFragment item index suffix ""]) = _
        rw [renameFragment_empty]
    have hall : layer.passAll [""] = (layer, [""]) := by
      unfold passAll
      rw [hpass]
      rfl
    simp only [passThrough, hall, ih]

/-! ## 2. Scopes that are near -/

/-- Whether a scope is another one but for traces of substitutions: the alias of the parameter, and
    empty fragments. `e` is what substitutions expose. -/
structure Near (e : Option Value) (s s' : Scope) : Prop where
  bindings : Bindings.Aliased e s.bindings s'.bindings
  fragments : s'.fragments.filter isShown = s.fragments.filter isShown
  counter : s'.counter = s.counter
  layers : s'.layers = s.layers

/-- Whether the variables of a loop may be bound while `e` is exposed. -/
def Loop.IsFree (e : Option Value) (l : Loop) : Prop := ∀ n ∈ l.names, IsFreeName e n

theorem isFreeName_elementName (e : Option Value) (name : String) (suffix : Nat) :
    IsFreeName e (elementName name suffix) := by
  have other {n : String} (hn : isElementName n = false) : elementName name suffix ≠ n := by
    intro heq
    rw [← heq, isElementName_elementName] at hn
    cases hn
  exact ⟨other (by decide +kernel), .inl (other (by decide +kernel))⟩

theorem Loop.IsFree.item {l : Loop} (hl : l.IsFree e) : ∀ n ∈ l.item, IsFreeName e n :=
  fun n hn => hl n (Loop.mem_names.mpr (.inl hn))

theorem Loop.IsFree.index {l : Loop} (hl : l.IsFree e) : ∀ n ∈ l.index, IsFreeName e n :=
  fun n hn => hl n (Loop.mem_names.mpr (.inr hn))

namespace Near

variable {s s' : Scope}

theorem append (h : Near e s s') (fragment : String) :
    Near e (s.append fragment) (s'.append fragment) where
  bindings := h.bindings
  fragments := by
    show (s'.fragments ++ (Layer.passThrough s'.layers [fragment]).2).filter isShown =
      (s.fragments ++ (Layer.passThrough s.layers [fragment]).2).filter isShown
    rw [List.filter_append, List.filter_append, h.fragments, h.layers]
  counter := h.counter
  layers := congrArg (fun layers => (Layer.passThrough layers [fragment]).1) h.layers

theorem appendText (h : Near e s s') (text : Option String) :
    Near e (Loop.appendText text s) (Loop.appendText text s') := by
  cases text with
  | none => exact h
  | some text => exact h.append text

/-- An empty fragment on one side is a trace. -/
theorem append_empty (h : Near e s s') : Near e s (s'.append "") := by
  have hs : s'.append "" = { s' with fragments := s'.fragments ++ [""] } := by
    unfold Scope.append
    rw [Layer.passThrough_empty]
  rw [hs]
  refine ⟨h.bindings, ?_, h.counter, h.layers⟩
  show (s'.fragments ++ [""]).filter isShown = _
  rw [List.filter_append, h.fragments]
  exact List.append_nil _

theorem exposing (h : Near e s s') :
    Near e (Literal.exposeParameter s) (Literal.exposeParameter s') := by
  rw [Literal.exposeParameter_bindings, Literal.exposeParameter_bindings]
  exact ⟨h.bindings.exposing, h.fragments, h.counter, h.layers⟩

/-- The alias on one side is a trace. -/
theorem exposing_right (h : Near e s s') : Near e s (Literal.exposeParameter s') := by
  rw [Literal.exposeParameter_bindings]
  exact ⟨h.bindings.exposing_right, h.fragments, h.counter, h.layers⟩

theorem cover (h : Near e s s') (layers : List Layer) : Near e (s.cover layers) (s'.cover layers) :=
  ⟨h.bindings, h.fragments, h.counter, congrArg (layers ++ ·) h.layers⟩

theorem uncover (h : Near e s s') (count : Nat) :
    (s'.uncover count).1 = (s.uncover count).1 ∧ Near e (s.uncover count).2 (s'.uncover count).2 :=
  ⟨congrArg (List.take count) h.layers, h.bindings, h.fragments, h.counter,
    congrArg (List.drop count) h.layers⟩

theorem bind (h : Near e s s') {n : String} (hn : IsFreeName e n) (v : Value) :
    Near e (s.bind n v) (s'.bind n v) :=
  ⟨h.bindings.insert hn v, h.fragments, h.counter, h.layers⟩

theorem unbind (h : Near e s s') {n : String} (hn : IsFreeName e n) :
    Near e (s.unbind n) (s'.unbind n) :=
  ⟨h.bindings.remove hn, h.fragments, h.counter, h.layers⟩

theorem bindVariable (h : Near e s s') {name : Option String} (hn : ∀ n ∈ name, IsFreeName e n)
    (suffix : Nat) (v : Value) :
    Near e (Loop.bindVariable name suffix v s) (Loop.bindVariable name suffix v s') := by
  cases name with
  | none => exact h
  | some n => exact (h.bind (hn n rfl) v).bind (isFreeName_elementName e n suffix) v

theorem restore (h : Near e s s') {name : Option String} (hn : ∀ n ∈ name, IsFreeName e n)
    (before : Option Value) :
    Near e (Loop.restore name before s) (Loop.restore name before s') := by
  cases name with
  | none => exact h
  | some n =>
    cases before with
    | none => exact h.unbind (hn n rfl)
    | some v => exact h.bind (hn n rfl) v

/-- Loops find the same entries under their variables. -/
theorem shadowed (h : Near e s s') {name : Option String} (hn : ∀ n ∈ name, IsFreeName e n) :
    Loop.shadowed name s' = Loop.shadowed name s := by
  cases name with
  | none => rfl
  | some n =>
    rcases (hn n rfl).2 with hv | he
    · exact h.bindings.get?_other hv
    · exact congrArg (·.getOwn? n) (h.bindings.same he)

theorem enter (h : Near e s s') {l : Loop} (hl : l.IsFree e) (el : Element) :
    Near e (l.enter el s) (l.enter el s') := by
  have hnext : Near e { s with counter := s.counter + 1 } { s' with counter := s'.counter + 1 } :=
    ⟨h.bindings, h.fragments, congrArg (· + 1) h.counter, h.layers⟩
  unfold Loop.enter
  rw [h.counter] at hnext ⊢
  exact (hnext.bindVariable hl.index s.counter el.key).bindVariable hl.item s.counter el.value

end Near

/-! ## 3. Steps that go on alike -/

/-- Whether two outcomes are alike: results that `R` relates, in scopes that are near, or the same
    failure. -/
inductive Alike {α : Type} (R : α → α → Prop) (e : Option Value) :
    EStateM.Result RenderError Scope α → EStateM.Result RenderError Scope α → Prop where
  | ok {a a' : α} {s s' : Scope} (hr : R a a') (hs : Near e s s') : Alike R e (.ok a s) (.ok a' s')
  | error (failure : RenderError) (s s' : Scope) : Alike R e (.error failure s) (.error failure s')

/-- A step that succeeds hands over to the next one. -/
theorem RenderM.bind_of_ok {α β : Type} {step : RenderM α} {s m : Scope} {a : α}
    (h : step s = .ok a m) (next : α → RenderM β) : (step >>= next) s = next a m := by
  show EStateM.bind step next s = next a m
  unfold EStateM.bind
  rw [h]

namespace Alike

variable {α β : Type} {R : α → α → Prop} {Q : β → β → Prop} {s s' : Scope}

theorem bind {step step' : RenderM α} {next next' : α → RenderM β}
    (h : Alike R e (step s) (step' s'))
    (hn : ∀ a a' m m', step s = .ok a m → R a a' → Near e m m' →
      Alike Q e (next a m) (next' a' m')) :
    Alike Q e ((step >>= next) s) ((step' >>= next') s') := by
  show Alike Q e (EStateM.bind step next s) (EStateM.bind step' next' s')
  unfold EStateM.bind
  cases hp : step s with
  | ok a m =>
    cases hp' : step' s' with
    | ok a' m' =>
      rw [hp, hp'] at h
      cases h with
      | ok hr hm => exact hn a a' m m' hp hr hm
    | error failure m' =>
      rw [hp, hp'] at h
      cases h
  | error failure m =>
    cases hp' : step' s' with
    | ok a' m' =>
      rw [hp, hp'] at h
      cases h
    | error failure' m' =>
      rw [hp, hp'] at h
      cases h
      exact .error failure m m'

/-- A step may look at its scope. -/
theorem get {next next' : Scope → RenderM α} (h : Alike R e (next s s) (next' s' s')) :
    Alike R e ((get >>= next) s) ((get >>= next') s') := h

theorem modify {change change' : Scope → Scope} (h : Near e (change s) (change' s')) :
    Alike Eq e ((modify change : RenderM PUnit) s) ((modify change' : RenderM PUnit) s') :=
  .ok rfl h

theorem ofExcept {x x' : Except RenderError α} (hx : x' = x) (h : Near e s s') :
    Alike Eq e (RenderM.ofExcept x s) (RenderM.ofExcept x' s') := by
  rw [hx]
  cases x with
  | ok a => exact .ok rfl h
  | error failure => exact .error failure s s'

theorem wrapping {step step' : RenderM α} (wrap : RenderError → RenderError)
    (h : Alike R e (step s) (step' s')) :
    Alike R e (RenderM.wrapping wrap step s) (RenderM.wrapping wrap step' s') := by
  unfold RenderM.wrapping
  generalize step s = x at h ⊢
  generalize step' s' = x' at h ⊢
  cases h with
  | ok hr hs => exact .ok hr hs
  | error failure m m' => exact .error (wrap failure) m m'

/-- What becomes of layers is the same. -/
theorem under {step step' : RenderM α} {layers : List Layer}
    (h : Alike R e (step (s.cover layers)) (step' (s'.cover layers))) :
    Alike (fun p p' => p'.2 = p.2) e (RenderM.under layers step s)
      (RenderM.under layers step' s') := by
  unfold RenderM.under
  generalize step (s.cover layers) = x at h ⊢
  generalize step' (s'.cover layers) = x' at h ⊢
  cases h with
  | ok _ hs => exact .ok (hs.uncover layers.length).1 (hs.uncover layers.length).2
  | error failure m m' => exact .error failure _ _

/-- A step on one side may be followed by one that leaves traces at most. The results of whole
    templates do not matter. -/
theorem followed {x : EStateM.Result RenderError Scope α} {step' : RenderM α} {next' : RenderM α}
    (h : Alike R e x (step' s'))
    (hn : ∀ a m m', x = .ok a m → Near e m m' → ∃ b n, next' m' = .ok b n ∧ Near e m n) :
    Alike (fun _ _ => True) e x ((step' >>= fun _ => next') s') := by
  show Alike _ e x (EStateM.bind step' (fun _ => next') s')
  unfold EStateM.bind
  cases hp : step' s' with
  | ok a' m' =>
    rw [hp] at h
    cases h with
    | ok hr hs =>
      obtain ⟨b, n, hnext, hnear⟩ := hn _ _ m' rfl hs
      show Alike _ e _ (next' m')
      rw [hnext]
      exact .ok True.intro hnear
  | error failure m' =>
    rw [hp] at h
    cases h with
    | error failure m m' => exact .error failure m m'

end Alike

/-- Whether two steps go on alike from all scopes that are near, if `P` holds of the first one. -/
def Steady (e : Option Value) (P : Scope → Prop) (step step' : RenderM Bool) : Prop :=
  ∀ {s s' : Scope}, Near e s s' → P s → Alike (fun _ _ => True) e (step s) (step' s')

/-! ## 4. Literals -/

namespace Literal

variable {s s' : Scope}

theorem substitute_alike (he : engine.LooksUp) (l : Literal) (content : List Char)
    (h : Near e s s') :
    Alike Eq e (l.substitute engine content s) (l.substitute engine content s') := by
  unfold substitute
  refine .bind (.modify h.exposing) fun _ _ m m' _ _ hm => ?_
  have hv := he.evaluate (String.ofList content) hm.bindings.get?
  refine .get (.bind (.ofExcept hv hm) fun v v' m m' _ hv hm => ?_)
  subst hv
  exact .bind (.ofExcept rfl hm) fun _ _ _ _ _ _ hm => .ok rfl hm

theorem renderPieces_alike (he : engine.LooksUp) (l : Literal) (ps : List Piece)
    (h : Near e s s') :
    Alike Eq e (Delimiters.substitution.renderPieces (l.substitute engine) ps s)
      (Delimiters.substitution.renderPieces (l.substitute engine) ps s') := by
  have piece (p : Piece) {s s' : Scope} (h : Near e s s') :
      Alike Eq e (Delimiters.substitution.renderPiece (l.substitute engine) p s)
        (Delimiters.substitution.renderPiece (l.substitute engine) p s') := by
    cases hc : p.content? with
    | none =>
      rw [renderPiece_plain l engine hc]
      exact .ok rfl h
    | some content =>
      obtain rfl := p.eq_token_of_content? hc
      refine .bind (substitute_alike he l content h) fun reply reply' m m' _ hr hm => ?_
      subst hr
      cases reply with
      | none => exact .ok rfl hm
      | some text => exact .ok rfl hm
  induction ps generalizing s s' with
  | nil => exact .ok rfl h
  | cons p ps ih =>
    refine .bind (piece p h) fun first first' m m' _ hf hm => ?_
    subst hf
    refine .bind (ih hm) fun others others' n n' _ ho hn => ?_
    subst ho
    exact .ok rfl hn

theorem apply_steady (he : engine.LooksUp) (l : Literal) :
    Steady e (fun _ => True) (l.apply engine) (l.apply engine) := by
  intro s s' h _
  refine .bind (renderPieces_alike he l _ h) fun text text' m m' _ ht hm => ?_
  subst ht
  exact .bind (.modify (hm.append _)) fun _ _ _ _ _ _ hm => .ok True.intro hm

end Literal

/-! ## 5. Loops -/

/-- Whether `P` holds of every scope in which the body of a loop is rendered for an element from
    `position` on. -/
def Loop.Everywhere (l : Loop) (body : RenderM Bool) (P : Scope → Prop) :
    Bool → Nat → List Element → Scope → Prop
  | _, _, [], _ => True
  | first, position, el :: es, s =>
    P ((l.enter el s).cover (l.elementLayers first s.counter)) ∧
      ∀ next m, l.renderElement body first position el s = .ok next m →
        l.Everywhere body P next (position + 1) es m

namespace Loop

variable {l : Loop} {body body' : RenderM Bool} {P : Scope → Prop} {s s' : Scope}

theorem everywhere_of_forall (hp : ∀ s, P s) (first : Bool) (position : Nat) (es : List Element)
    (s : Scope) : l.Everywhere body P first position es s := by
  induction es generalizing first position s with
  | nil => exact True.intro
  | cons el es ih => exact ⟨hp _, fun next m _ => ih next (position + 1) m⟩

theorem renderElement_alike (hb : Steady e P body body') (hl : l.IsFree e) (first : Bool)
    (position : Nat) (el : Element) (h : Near e s s')
    (hp : P ((l.enter el s).cover (l.elementLayers first s.counter))) :
    Alike Eq e (l.renderElement body first position el s)
      (l.renderElement body' first position el s') := by
  have inside : Near e ((l.enter el s).cover (l.elementLayers first s.counter))
      ((l.enter el s').cover (l.elementLayers first s'.counter)) := by
    rw [h.counter]
    exact (h.enter hl el).cover _
  have laid := (hb inside hp)
  rw [h.counter] at laid
  have element (body : RenderM Bool) (s : Scope) : l.renderElement body first position el s =
      ((RenderM.wrapping (.inLoop l.collection position)
          (.under (l.elementLayers first s.counter) body) >>= fun laid =>
        pure (first && !laid.2.any Layer.isApplied)) : RenderM Bool) (l.enter el s) := rfl
  rw [element, element, h.counter]
  refine .bind (.wrapping _ (.under laid)) fun p p' m m' _ hr hm => .ok ?_ hm
  rw [hr]

theorem renderElements_alike (hb : Steady e P body body') (hl : l.IsFree e) {first : Bool}
    {position : Nat} {es : List Element} (h : Near e s s')
    (hp : l.Everywhere body P first position es s) :
    Alike Eq e (l.renderElements body first position es s)
      (l.renderElements body' first position es s') := by
  induction es generalizing first position s s' with
  | nil => exact .ok rfl h
  | cons el es ih =>
    refine .bind (renderElement_alike hb hl first position el h hp.1)
      fun next next' m m' hn hr hm => ?_
    subst hr
    exact ih hm (hp.2 next m hn)

theorem apply_steady (he : engine.LooksUp) (hb : Steady e P body body') (hl : l.IsFree e) :
    Steady e (fun s => ∀ es, engine.elements l.collection s.bindings = .ok es →
        l.Everywhere body P true 0 es (appendText l.opening s))
      (l.apply engine body) (l.apply engine body') := by
  intro s s' h hp
  unfold apply
  refine .get (.bind (.ofExcept (he.elements _ h.bindings.get?) h) fun es es' m m' hes hr hm => ?_)
  subst hr
  obtain ⟨hes, rfl⟩ := RenderM.ofExcept_ok.mp hes
  have loops := hp es hes
  cases es with
  | nil => exact .ok True.intro hm
  | cons el es =>
    refine .bind (.modify (hm.appendText l.opening)) fun _ _ n n' hn _ opened => ?_
    obtain rfl := RenderM.modify_ok.mp hn
    refine .get (.get ?_)
    rw [opened.shadowed hl.item, opened.shadowed hl.index]
    refine .bind (renderElements_alike hb hl opened loops) fun _ _ _ _ _ _ hp => ?_
    refine .bind (.modify (hp.appendText l.closing)) fun _ _ _ _ _ _ hp => ?_
    refine .bind (.modify (hp.restore hl.item _)) fun _ _ _ _ _ _ hp => ?_
    exact .bind (.modify (hp.restore hl.index _)) fun _ _ _ _ _ _ hp => .ok True.intro hp

end Loop

/-! ## 6. Templates -/

namespace Template

theorem applyConditional_steady (he : engine.LooksUp) {test : String} {body body' : RenderM Bool}
    {P : Scope → Prop} (hb : Steady e P body body') :
    Steady e (fun s => engine.test test s.bindings = .ok true → P s)
      (applyConditional test engine body) (applyConditional test engine body') := by
  intro s s' h hp
  unfold applyConditional
  refine .get (.bind (.ofExcept (he.test test h.bindings.get?) h)
    fun passed passed' m m' ht hr hm => ?_)
  subst hr
  obtain ⟨ht, rfl⟩ := RenderM.ofExcept_ok.mp ht
  cases passed with
  | false => exact .ok True.intro hm
  | true => exact .bind (.wrapping _ (hb hm (hp ht))) fun _ _ _ _ _ _ hm => .ok True.intro hm

mutual

/-- **Rendering a template goes on alike** from all scopes that are near, if its loops do not bind
    what substitutions write. -/
theorem apply_steady (he : engine.LooksUp) : ∀ t : Template, (∀ l ∈ t.loops, l.IsFree e) →
    Steady e (fun _ => True) (t.apply engine) (t.apply engine)
  | .literal l, _ => l.apply_steady he
  | .conditional _ body, hl => fun h _ =>
    applyConditional_steady he (apply_steady he body hl) h fun _ => True.intro
  | .loop l body, hl => fun h _ =>
    l.apply_steady he (apply_steady he body fun l hmem => hl l (List.mem_cons_of_mem _ hmem))
      (hl l List.mem_cons_self) h fun _ _ => Loop.everywhere_of_forall (fun _ => True.intro) _ _ _ _
  | .sequence children, hl => applyAll_steady he children hl

theorem applyAll_steady (he : engine.LooksUp) : ∀ ts : List Template,
    (∀ l ∈ allLoops ts, l.IsFree e) →
      Steady e (fun _ => True) (applyAll engine ts) (applyAll engine ts)
  | [], _ => fun h _ => .ok True.intro h
  | child :: rest, hl => fun h _ =>
    .bind (apply_steady he child (fun l hmem => hl l (List.mem_append_left _ hmem)) h True.intro)
      fun _ _ _ _ _ _ hm =>
        applyAll_steady he rest (fun l hmem => hl l (List.mem_append_right _ hmem)) hm True.intro

end

/-- Templates that are rendered in order are rendered up to some place and from there on. -/
theorem applyAll_append (front back : List Template) :
    applyAll engine (front ++ back) = (do
      let _ ← applyAll engine front
      applyAll engine back) := by
  induction front with
  | nil => rw [List.nil_append, applyAll, pure_bind]
  | cons child front ih => rw [List.cons_append, applyAll, ih, applyAll, bind_assoc]

end Template

end SqlTemplate
