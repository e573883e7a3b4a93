import SqlTemplate.Query
import SqlTemplate.Settings
import SqlTemplate.Template

/-!
# Backends

* `Backend`: an engine and settings;
* `Backend.renderScope`: applies a template to a fresh scope;
* `Backend.render`: the query that a template makes of a parameter.
-/

namespace SqlTemplate

/-- What templates are rendered for: the engine of their expressions, and the settings of a
    database. It keeps nothing from one render to the next. -/
structure Backend where
  engine : Engine
  settings : Settings := {}

namespace Backend

/-- The bindings at the start of a render of `parameter`, which `accessor` reads if there is
    one. -/
def bindingsFor (b : Backend) (parameter : Value) (accessor : Option Accessor) : Bindings :=
  .forParameter parameter accessor b.settings.databaseId

/-- The scope after a template has been applied. Bind placeholders still stand in its text. -/
def renderScope (b : Backend) (root : Template) (parameter : Value)
    (accessor : Option Accessor) : Except RenderError Scope :=
  match root.apply b.engine (.ofBindings (b.bindingsFor parameter accessor)) with
  | .ok _ scope => .ok scope
  | .error e _ => .error e

/-- The SQL and the markers of a template for `parameter`. -/
def render (b : Backend) (root : Template) (parameter : Value) (accessor : Option Accessor) :
    Except RenderError Query :=
  match b.renderScope root parameter accessor with
  | .ok scope => Query.finalize b.settings.markerStyle scope.text scope.bindings
  | .error e => .error e

end Backend

end SqlTemplate
