import SqlTemplate.Settings
import SqlTemplate.Toml.Document

/-!
# Settings files

* `Settings.read`: the settings that a TOML document gives;
* `SettingsError`: why a document gives none.

Keys that no setting has are passed over.
-/

namespace SqlTemplate

/-- Why a document gives no settings. -/
inductive SettingsError where
  /-- It is no TOML document. -/
  | malformed
  /-- A key has a value that its setting cannot have. -/
  | badValue (key : String)
  deriving DecidableEq, Repr

/-- The wording of a `SettingsError`. -/
def SettingsError.message : SettingsError → String
  | .malformed => "malformed settings"
  | .badValue key => "bad value of '" ++ key ++ "'"

namespace Settings

/-! ## 1. Values -/

/-- The text that a value is. -/
def textOf? : Toml.Value → Option String
  | .text s => some s
  | _ => none

/-- The truth value that a value is. -/
def booleanOf? : Toml.Value → Option Bool
  | .boolean b => some b
  | _ => none

/-- The table of texts that a value is. -/
def tableOf? : Toml.Value → Option TextTable
  | .table _ entries =>
    (entries.mapM fun entry => (textOf? entry.2).map fun s => (entry.1, s)).map TextTable.ofList
  | _ => none

/-- Whether a value holds nothing. -/
def isVoid : Toml.Value → Bool
  | .table _ entries => entries.isEmpty
  | .array items => items.isEmpty
  | _ => false

/-- The style that a value names: by its name, or as a table whose only key is the name. -/
def styleOf? : Toml.Value → Option MarkerStyle
  | .text name => MarkerStyle.ofName? name
  | .table _ [(name, v)] => if isVoid v then MarkerStyle.ofName? name else none
  | _ => none

/-! ## 2. Keys -/

/-- The setting under a key, or its default where the key is missing. -/
def field {α : Type} (entries : Toml.Entries) (key : String) (of? : Toml.Value → Option α)
    (default : α) : Except SettingsError α :=
  match entries.lookup key with
  | none => .ok default
  | some v =>
    match of? v with
    | some a => .ok a
    | none => .error (.badValue key)

/-- The settings of the entries of a document. -/
def ofEntries (entries : Toml.Entries) : Except SettingsError Settings := do
  let databaseId ← field entries "database_id" (fun v => (textOf? v).map some) none
  let aliases ← field entries "database_id_aliases" tableOf? []
  let markerStyle ← field entries "placeholder_style" styleOf? .questionMark
  let vars ← field entries "variables" tableOf? []
  let defaultsEnabled ← field entries "enable_default_value" booleanOf? false
  let defaultSeparator ← field entries "default_value_separator" textOf? ":"
  return { databaseId, aliases, markerStyle, vars, defaultsEnabled, defaultSeparator }

/-- The settings that a document gives. -/
def read (text : String) : Except SettingsError Settings :=
  match Toml.parse? text with
  | some entries => ofEntries entries
  | none => .error .malformed

end Settings

end SqlTemplate
