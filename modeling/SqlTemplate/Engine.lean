import SqlTemplate.Bindings
import SqlTemplate.RenderError
import SqlTemplate.Value.Display

/-!
# Expression engines

Rendering never interprets an expression itself. It asks an `Engine` for a value and decides with
the rules of this file what the value means to a conditional and to a loop.

* `Value.holds`: whether a conditional renders its body;
* `Value.unpack`: the elements that a loop goes through;
* `Engine`: evaluation of expressions against bindings.
-/

namespace SqlTemplate

/-- One element of a loop: the place in a sequence or the key of a mapping, and the value. -/
structure Element where
  key : Value
  value : Value

namespace Value

/-- Whether a value makes a conditional render its body: a boolean is taken as it is, a number
    holds unless it is zero, a missing value does not, and everything else does. -/
def holds : Value → Bool
  | .undefined => false
  | .null => false
  | .bool b => b
  | .int n => n != 0
  | .float x => x != 0.0
  | _ => true

/-- The values with their places as keys, counted from `position`. -/
def numbered (position : Nat) : List Value → List Element
  | [] => []
  | v :: vs => ⟨.int position, v⟩ :: numbered (position + 1) vs

/-- The elements of a value, for a loop over `expression`. -/
def unpack (expression : String) : Value → Except RenderError (List Element)
  | .undefined => .error (.nullIterable expression)
  | .null => .error (.nullIterable expression)
  | .seq items => .ok (numbered 0 items)
  | .iter items => .ok (numbered 0 items)
  | .bytes bs => .ok (numbered 0 (bs.map fun b => .int b.toNat))
  | .map entries => .ok (entries.map fun (k, v) => ⟨k, v⟩)
  | v => .error (.notIterable expression v.display)

end Value

/-- Evaluation of expressions against bindings. The truth of a test and the elements of a
    collection follow from the value unless an engine has rules of its own for them. -/
structure Engine where
  /-- The value of an expression. -/
  evaluate : String → Bindings → Except RenderError Value
  /-- Whether a conditional with that test renders its body. -/
  test : String → Bindings → Except RenderError Bool := fun expression bindings =>
    (evaluate expression bindings).map Value.holds
  /-- The elements of a loop over that collection. -/
  elements : String → Bindings → Except RenderError (List Element) := fun expression bindings =>
    match evaluate expression bindings with
    | .ok v => v.unpack expression
    | .error e => .error e

end SqlTemplate
