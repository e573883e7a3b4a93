import SqlTemplate.Bindings
import SqlTemplate.Token

/-!
# Render scopes

What one render writes to: bindings, the fragments of SQL appended so far, and a counter. While a
loop renders its elements, layers lie over the scope and change the fragments on their way in.

* `Layer`: a separator in front of the first fragment that is not blank, or the renaming of the
  loop variables in bind placeholders;
* `Scope`: the state of a render;
* `elementName`: the name under which the value of one element stays readable after its loop.
-/

namespace SqlTemplate

/-! ## 1. Names of elements -/

/-- How the names of elements begin. -/
def elementPrefix : String := "__frch_"

/-- The name that stands for `name` in the element with the number `suffix`. -/
def elementName (name : String) (suffix : Nat) : String :=
  elementPrefix ++ name ++ "_" ++ toString suffix

/-- Whether a name can end in front of `rest`. -/
def endsName : List Char → Bool
  | [] => true
  | c :: _ => Text.isBlank c || c == '.' || c == ',' || c == ':' || c == '['

/-- The content of a placeholder with the leading name `name` replaced by that of the element;
    `none` when the content starts with another name. -/
def renameLeading? (name : String) (suffix : Nat) (content : List Char) : Option (List Char) :=
  if name.isEmpty then none
  else
    match name.toList.isPrefixOf? (Text.trimStart content) with
    | some rest => if endsName rest then some ((elementName name suffix).toList ++ rest) else none
    | none => none

/-! ## 2. Layers -/

/-- What lies over a scope while an element of a loop is rendered. -/
inductive Layer where
  /-- Puts `text` in front of the first fragment that is not blank. `applied` says whether there
      has been one. -/
  | separator (text : String) (applied : Bool)
  /-- Gives the loop variables `item` and `index` in bind placeholders the names of the element
      with the number `suffix`. -/
  | renaming (item index : Option String) (suffix : Nat)
  deriving DecidableEq, Repr

namespace Layer

/-- The content of a placeholder with a leading loop variable renamed. The item goes before the
    index. -/
def rename (item index : Option String) (suffix : Nat) (content : List Char) : List Char :=
  match item.bind fun name => renameLeading? name suffix content with
  | some renamed => renamed
  | none =>
    match index.bind fun name => renameLeading? name suffix content with
    | some renamed => renamed
    | none => content

/-- A fragment with the loop variables of all its bind placeholders renamed. -/
def renameFragment (item index : Option String) (suffix : Nat) (fragment : String) : String :=
  String.ofList (Delimiters.bind.replace
    (fun content => some (Delimiters.bind.wrap (rename item index suffix content)))
    fragment.toList)

/-- Passes one fragment: the layer afterwards, and the fragments that come out. -/
def pass (fragment : String) : Layer → Layer × List String
  | .separator text applied =>
    if applied || Text.isBlankText fragment then (.separator text applied, [fragment])
    else (.separator text true, if text.isEmpty then [fragment] else [text, fragment])
  | .renaming item index suffix =>
    (.renaming item index suffix, [renameFragment item index suffix fragment])

/-- Passes fragments one after the other. -/
def passAll : Layer → List String → Layer × List String
  | layer, [] => (layer, [])
  | layer, fragment :: rest =>
    let (layer, out) := layer.pass fragment
    let (layer, others) := passAll layer rest
    (layer, out ++ others)

/-- Passes fragments through layers, the first one first. -/
def passThrough : List Layer → List String → List Layer × List String
  | [], fragments => ([], fragments)
  | layer :: rest, fragments =>
    let (layer, out) := layer.passAll fragments
    let (rest, out) := passThrough rest out
    (layer :: rest, out)

/-- Whether a separator has met a fragment that is not blank. -/
def isApplied : Layer → Bool
  | .separator _ applied => applied
  | .renaming _ _ _ => false

end Layer

/-! ## 3. Scopes -/

/-- The state of a render. -/
structure Scope where
  bindings : Bindings := {}
  /-- The fragments that have arrived, in order. -/
  fragments : List String := []
  /-- The number of the next element. -/
  counter : Nat := 0
  /-- The layers over the scope, the innermost first. -/
  layers : List Layer := []

namespace Scope

/-- The scope at the start of a render. -/
def ofBindings (bindings : Bindings) : Scope := { bindings }

/-- The fragments with one space between any two, without blank ends. -/
def text (s : Scope) : String := Text.trimText (Text.joinTexts " " s.fragments)

/-- Appends a fragment through the layers. -/
def append (fragment : String) (s : Scope) : Scope :=
  let (layers, out) := Layer.passThrough s.layers [fragment]
  { s with layers, fragments := s.fragments ++ out }

/-- Writes an entry of the bindings. -/
def bind (name : String) (value : Value) (s : Scope) : Scope :=
  { s with bindings := s.bindings.insert name value }

/-- Takes an entry out of the bindings. -/
def unbind (name : String) (s : Scope) : Scope := { s with bindings := s.bindings.remove name }

/-- The number of the next element, and the scope in which it is taken. -/
def nextId (s : Scope) : Nat × Scope := (s.counter, { s with counter := s.counter + 1 })

/-- Lays layers over the scope, the first one innermost. -/
def cover (layers : List Layer) (s : Scope) : Scope := { s with layers := layers ++ s.layers }

/-- Takes the innermost `count` layers off: the layers and the scope below. -/
def uncover (count : Nat) (s : Scope) : List Layer × Scope :=
  (s.layers.take count, { s with layers := s.layers.drop count })

end Scope

end SqlTemplate
