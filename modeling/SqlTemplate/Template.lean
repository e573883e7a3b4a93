import SqlTemplate.Engine
import SqlTemplate.Pattern.Check
import SqlTemplate.Scope

/-!
# Templates

A statement is a tree of literal text, conditionals, loops and sequences.

* `Template`: the tree;
* `Template.apply`: renders a tree into a scope. A failure leaves the scope as it was when the
  failure arose;
* `Template.isDynamic`: whether the rendered text can depend on the parameter.
-/

namespace SqlTemplate

/-! ## 1. Trees -/

/-- Text with `${...}` substitutions. Bind placeholders in it are left as they are. -/
structure Literal where
  text : String
  /-- What every substituted text has to match. -/
  check : Option Check := none

/-- A loop without its body. -/
structure Loop where
  /-- The expression whose elements the loop goes through. -/
  collection : String
  /-- The name of the value of the current element. -/
  item : Option String := none
  /-- The name of the place or key of the current element. -/
  index : Option String := none
  opening : Option String := none
  closing : Option String := none
  separator : Option String := none
  deriving DecidableEq, Repr

namespace Loop

/-- A name for a loop variable. A blank name is none. -/
def variableName? (name : String) : Option String :=
  if Text.isBlankText name then none else some name

end Loop

/-- A template of SQL. -/
inductive Template where
  | literal (l : Literal)
  /-- The body, if the test holds. -/
  | conditional (test : String) (body : Template)
  /-- The body once per element. -/
  | loop (l : Loop) (body : Template)
  /-- The children in order. -/
  | sequence (children : List Template)

/-! ## 2. Rendering -/

/-- A step of a render: it may fail, and it changes the scope in either case. -/
abbrev RenderM := EStateM RenderError Scope

namespace RenderM

/-- The result of an engine, which does not change the scope. -/
def ofExcept {α : Type} : Except RenderError α → RenderM α
  | .ok a => pure a
  | .error e => throw e

/-- Wraps the failure of a step. -/
def wrapping {α : Type} (wrap : RenderError → RenderError) (step : RenderM α) : RenderM α :=
  fun s =>
    match step s with
    | .ok a s => .ok a s
    | .error e s => .error (wrap e) s

/-- Runs a step under layers, and returns what has become of them. The layers are taken off after
    a failure too. -/
def under {α : Type} (layers : List Layer) (step : RenderM α) : RenderM (α × List Layer) :=
  fun s =>
    match step (s.cover layers) with
    | .ok a s =>
      let (laid, s) := s.uncover layers.length
      .ok (a, laid) s
    | .error e s => .error e (s.uncover layers.length).2

end RenderM

/-! ## 3. Literals -/

namespace Literal

/-- The name under which substitutions see a scalar parameter. -/
def valueName : String := "value"

/-- Binds a scalar or missing parameter under the name that substitutions see it by. -/
def exposeParameter (s : Scope) : Scope :=
  let parameter := (s.bindings.getOwn? Bindings.parameterName).getD .null
  if parameter.isAbsent then s.bind valueName .null
  else if (ParamType.of parameter).isScalar then s.bind valueName parameter
  else s

/-- The text of a value in a substitution. A missing value leaves nothing. -/
def substituted (v : Value) : String := if v.isAbsent then "" else v.display

/-- Refuses a text that does not pass the check. -/
def checkText (check : Option Check) (text : String) : Except RenderError Unit :=
  match check with
  | none => .ok ()
  | some check =>
    if check.accepts text then .ok () else .error (.validation text check.pattern)

/-- The text of a substitution. -/
def substitute (l : Literal) (engine : Engine) (content : List Char) :
    RenderM (Option (List Char)) := do
  modify exposeParameter
  let v ← .ofExcept (engine.evaluate (String.ofList content) (← get).bindings)
  let text := substituted v
  .ofExcept (checkText l.check text)
  return some text.toList

/-- Renders a literal: one fragment, once all its substitutions have succeeded. -/
def apply (l : Literal) (engine : Engine) : RenderM Bool := do
  let text ← Delimiters.substitution.scan (l.substitute engine) l.text.toList
  modify (Scope.append (String.ofList text))
  return true

/-- Whether a literal holds a substitution. -/
def isDynamic (l : Literal) : Bool := Delimiters.substitution.hasToken l.text.toList

end Literal

/-! ## 4. Loops -/

namespace Loop

/-- The entry that the bindings hold under a loop variable. -/
def shadowed (name : Option String) (s : Scope) : Option Value :=
  match name with
  | some name => s.bindings.getOwn? name
  | none => none

/-- Binds a loop variable for an element, under its own name and under that of the element. -/
def bindVariable (name : Option String) (suffix : Nat) (v : Value) (s : Scope) : Scope :=
  match name with
  | some name => (s.bind name v).bind (elementName name suffix) v
  | none => s

/-- Gives a loop variable the entry that it had before the loop. -/
def restore (name : Option String) (before : Option Value) (s : Scope) : Scope :=
  match name, before with
  | some name, some v => s.bind name v
  | some name, none => s.unbind name
  | none, _ => s

/-- Appends a text that a loop may have. -/
def appendText (text : Option String) (s : Scope) : Scope :=
  match text with
  | some text => s.append text
  | none => s

/-- The separator in front of an element. Nothing separates an element from elements that have
    rendered nothing. -/
def separatorText (l : Loop) (first : Bool) : String :=
  if first then "" else l.separator.getD ""

/-- The layers over the scope while an element is rendered. -/
def elementLayers (l : Loop) (first : Bool) (suffix : Nat) : List Layer :=
  [.renaming l.item l.index suffix, .separator (l.separatorText first) false]

/-- Renders one element by `body`. The result says whether no element has rendered anything yet. -/
def renderElement (l : Loop) (body : RenderM Bool) (first : Bool) (position : Nat)
    (element : Element) : RenderM Bool := do
  let suffix ← modifyGet Scope.nextId
  modify (bindVariable l.index suffix element.key)
  modify (bindVariable l.item suffix element.value)
  let (_, layers) ← .wrapping (.inLoop l.collection position)
    (.under (l.elementLayers first suffix) body)
  return first && !layers.any Layer.isApplied

/-- Renders the elements from `position` on. -/
def renderElements (l : Loop) (body : RenderM Bool) : Bool → Nat → List Element → RenderM Unit
  | _, _, [] => pure ()
  | first, position, element :: rest => do
    let first ← l.renderElement body first position element
    l.renderElements body first (position + 1) rest

/-- Renders a loop whose body is rendered by `body`. A loop without elements renders nothing. -/
def apply (l : Loop) (engine : Engine) (body : RenderM Bool) : RenderM Bool := do
  let elements ← .ofExcept (engine.elements l.collection (← get).bindings)
  if elements.isEmpty then return true
  modify (appendText l.opening)
  let item := shadowed l.item (← get)
  let index := shadowed l.index (← get)
  l.renderElements body true 0 elements
  modify (appendText l.closing)
  modify (restore l.item item)
  modify (restore l.index index)
  return true

end Loop

/-! ## 5. Templates -/

namespace Template

/-- Renders a conditional whose body is rendered by `body`. -/
def applyConditional (test : String) (engine : Engine) (body : RenderM Bool) : RenderM Bool := do
  let passed ← .ofExcept (engine.test test (← get).bindings)
  if passed then
    let _ ← .wrapping (.inConditional test) body
    return true
  else return false

mutual

/-- Renders a template into the scope. The result says whether anything has been applied: it is
    false for a conditional whose test does not hold. -/
def apply (engine : Engine) : Template → RenderM Bool
  | .literal l => l.apply engine
  | .conditional test body => applyConditional test engine (apply engine body)
  | .loop l body => l.apply engine (apply engine body)
  | .sequence children => applyAll engine children

/-- Renders templates in order. -/
def applyAll (engine : Engine) : List Template → RenderM Bool
  | [] => pure true
  | child :: rest => do
    let _ ← apply engine child
    applyAll engine rest

end

mutual

/-- Whether the text of a template can depend on the parameter. -/
def isDynamic : Template → Bool
  | .literal l => l.isDynamic
  | .conditional _ _ => true
  | .loop _ _ => true
  | .sequence children => anyDynamic children

/-- Whether one of the templates is dynamic. -/
def anyDynamic : List Template → Bool
  | [] => false
  | child :: rest => isDynamic child || anyDynamic rest

end

/-- Literal text. -/
def ofText (text : String) : Template := .literal { text }

end Template

end SqlTemplate
