import SqlTemplate.Backend

/-!
# Statements

A statement is a template with an id. One without dynamic parts is rendered once per style of
markers; every later call binds the outcome to its own parameter.

* `Statement`: id, template and what has been prepared so far;
* `Statement.render`: one call, and the statement after it.
-/

namespace SqlTemplate

/-- A template with an id, and its prepared forms. -/
structure Statement where
  id : String
  root : Template
  /-- The prepared forms of a static template, by style. -/
  prepared : MarkerStyle → Option Prepared := fun _ => none

namespace Statement

/-- A statement that has not been rendered yet. -/
def ofTemplate (id : String) (root : Template) : Statement := { id, root }

/-- Whether the text of the statement can depend on the parameter. -/
def isDynamic (s : Statement) : Bool := s.root.isDynamic

/-- Keeps a prepared form. -/
def keep (s : Statement) (style : MarkerStyle) (p : Prepared) : Statement :=
  { s with prepared := fun other => if other = style then some p else s.prepared other }

/-- The prepared form for the style of a backend, and the statement that keeps it. It is made
    without a parameter when there is none; a failure keeps nothing. -/
def prepare (s : Statement) (b : Backend) : Except RenderError Prepared × Statement :=
  let style := b.settings.markerStyle
  match s.prepared style with
  | some p => (.ok p, s)
  | none =>
    match b.render s.root .null none with
    | .ok query =>
      let p := Prepared.ofQuery query
      (.ok p, s.keep style p)
    | .error e => (.error e, s)

/-- The outcome of a call without the name of the statement in its failures, and the statement
    after the call. -/
def renderBare (s : Statement) (b : Backend) (parameter : Value)
    (accessor : Option Accessor) : Except RenderError Query × Statement :=
  if s.isDynamic then (b.render s.root parameter accessor, s)
  else
    match s.prepare b with
    | (.ok p, s) => (.ok (p.bind (b.bindingsFor parameter accessor)), s)
    | (.error e, s) => (.error e, s)

/-- One call: its outcome, and the statement after it. A failure names the statement. -/
def render (s : Statement) (b : Backend) (parameter : Value) (accessor : Option Accessor) :
    Except RenderError Query × Statement :=
  let (outcome, next) := s.renderBare b parameter accessor
  (outcome.mapError (.inStatement s.id), next)

end Statement

end SqlTemplate
