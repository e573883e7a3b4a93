import SqlTemplate.Engine
import SqlTemplate.Text.Natural

/-!
# Markers

A marker is a place in the final SQL where the driver binds a value.

* `Marker`: where the value comes from and how it is declared;
* `MarkerStyle`: how a marker is written;
* `Marker.ofContent`: the marker that the content of a placeholder describes;
* `Marker.resolve`: the value to bind.
-/

namespace SqlTemplate

/-! ## 1. Styles -/

/-- The syntax of positional markers. -/
inductive MarkerStyle where
  /-- A question mark for every marker. -/
  | questionMark
  /-- A dollar sign and the position, counted from one. -/
  | dollarNumbered
  deriving DecidableEq, Repr

namespace MarkerStyle

/-- The marker at a position. -/
def marker (position : Nat) : MarkerStyle → String
  | .questionMark => "?"
  | .dollarNumbered => "$" ++ toString position

/-- The name of a style. -/
def name : MarkerStyle → String
  | .questionMark => "question_mark"
  | .dollarNumbered => "dollar_numbered"

/-- All styles. -/
def all : List MarkerStyle := [.questionMark, .dollarNumbered]

/-- The style with exactly the given name. -/
def ofName? (word : String) : Option MarkerStyle := all.find? fun s => s.name == word

end MarkerStyle

/-! ## 2. Markers -/

/-- Where the value of a marker comes from and how it is declared. -/
structure Marker where
  /-- The path of the property to bind; empty when an expression computes the value. -/
  property : String := ""
  /-- The expression that computes the value, if one does. -/
  expression : Option String := none
  valueType : ParamType := .any
  jdbcType : Option String := none
  direction : Direction := .input
  numericScale : Option Nat := none
  resultMap : Option String := none
  typeHandler : Option String := none
  jdbcTypeName : Option String := none
  deriving DecidableEq, Repr

namespace Marker

/-- The marker of a target, without any declaration. -/
def ofTarget : Target → Marker
  | .property path => { property := path }
  | .expression text => { expression := some text }

/-- The number of values that a scale can have. -/
def scaleBound : Nat := twoTo 32

/-- A marker with one more option, and the type that the options have declared so far. -/
def addOption (m : Marker) (declared : Option ParamType) (key value : String) :
    Except Placeholder.Reason (Marker × Option ParamType) :=
  match key with
  | "javaType" =>
    match ParamType.read value with
    | .ok type => .ok (m, some type)
    | .error cause => .error (.unknownName cause)
  | "jdbcType" => .ok ({ m with jdbcType := some value }, declared)
  | "mode" =>
    match Direction.read value with
    | .ok direction => .ok ({ m with direction }, declared)
    | .error cause => .error (.unknownName cause)
  | "numericScale" =>
    match Text.readBounded? scaleBound value.toList with
    | some scale => .ok ({ m with numericScale := some scale }, declared)
    | none => .error (.badScale value)
  | "resultMap" => .ok ({ m with resultMap := some value }, declared)
  | "typeHandler" => .ok ({ m with typeHandler := some value }, declared)
  | "jdbcTypeName" => .ok ({ m with jdbcTypeName := some value }, declared)
  | _ => .error (.unknownOption key)

/-- A marker with a list of options, in order. -/
def addOptions (m : Marker) (declared : Option ParamType) :
    List (String × String) → Except Placeholder.Reason (Marker × Option ParamType)
  | [] => .ok (m, declared)
  | (key, value) :: rest =>
    match m.addOption declared key value with
    | .ok (m, declared) => m.addOptions declared rest
    | .error reason => .error reason

/-- The type name of a cursor, whose value no property holds. -/
def cursorType : String := "CURSOR"

/-- The type of the value that a marker without a declared type will be bound to, as far as the
    bindings tell it. -/
def inferredType (m : Marker) (bindings : Bindings) : ParamType :=
  let own := if m.property.isEmpty then none else bindings.readOwn? m.property
  match own with
  | some v => .of v
  | none =>
    if bindings.shape = .scalar then .of bindings.parameter
    else if m.jdbcType = some cursorType ∨ m.property.isEmpty ∨ bindings.shape = .mapping then .any
    else bindings.parameterType m.property

/-- The marker that the content of a placeholder describes. -/
def describe (content : List Char) (bindings : Bindings) : Except Placeholder.Reason Marker := do
  let placeholder ← Placeholder.parse content
  let plain := { ofTarget placeholder.target with jdbcType := placeholder.jdbcType }
  let (m, declared) ← plain.addOptions none placeholder.options
  return { m with valueType := declared.getD (m.inferredType bindings) }

/-- The marker that the content of a placeholder describes; a refusal names the content. -/
def ofContent (content : List Char) (bindings : Bindings) : Except RenderError Marker :=
  match describe content bindings with
  | .ok m => .ok m
  | .error reason => .error (.placeholder (String.ofList content) reason)

/-! ## 3. Values -/

/-- The value to bind for a marker. An expression is evaluated; a path whose root is an entry is
    read from the entries; any other path is read from the parameter. -/
def resolve (m : Marker) (bindings : Bindings) (engine : Engine) : Except RenderError Value :=
  match m.expression with
  | some expression => engine.evaluate expression bindings
  | none =>
    let rooted :=
      match Bindings.rootName? m.property with
      | some root => bindings.contains root
      | none => false
    if rooted then .ok ((bindings.readOwn? m.property).getD .null)
    else
      match bindings.shape with
      | .absent => .ok .null
      | .scalar => .ok bindings.parameter
      | _ => .ok ((bindings.readParameter? m.property).getD .null)

end Marker

end SqlTemplate
