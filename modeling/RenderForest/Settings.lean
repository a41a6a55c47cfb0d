import RenderForest.Markdown.Piece
import RenderForest.Page.Theme
import RenderForest.Toml.Document
/-!
# Settings — what a file sets

A settings file is a TOML document.  Each setting may be left out; a name that is no setting is
refused, but not inside the table of the dialect.  This file defines:

* `Settings`, and `Settings.names`, the names that a file may use;
* `Settings.dialect?` and `Settings.theme?`, the two settings that are more than a value;
* `Settings.ofEntries?`, the settings of a table, and `Settings.read?`, those of a file.
-/

namespace RenderForest

structure Settings where
  breaks : Bool := false
  langClass : Option String := none
  safeMode : Bool := false
  sanitized : Bool := false
  highlight : Bool := false
  theme : Option Theme := none
  dialect : Markdown.Dialect := {}

namespace Settings

open Toml (Item Entries)

def names : List String :=
  ["breaks", "lang_prefix", "safe_mode", "sanitized", "highlight", "theme", "tokenize"]

/-! ## Values -/

def flag? : Item → Option Bool
  | .flag b => some b
  | _ => none

def text? : Item → Option String
  | .text s => some s
  | _ => none

def isHollow : Item → Bool
  | .table _ entries => entries.isEmpty
  | .list items => items.isEmpty
  | _ => false

/-- A theme: its name, or a table with nothing but the name. -/
def theme? : Item → Option Theme
  | .text s => Theme.ofName? s
  | .table _ [(name, item)] => if isHollow item then Theme.ofName? name else none
  | _ => none

def settingOr (read? : Item → Option α) (entries : Entries) (name : String) (other : α) :
    Option α :=
  match entries.get? name with
  | none => some other
  | some item => read? item

/-! ## The dialect -/

/-- The dialect of a table, whose other names are passed over. -/
def dialectOf? (entries : Entries) : Option Markdown.Dialect := do
  let base : Markdown.Dialect := {}
  let tables ← settingOr flag? entries "tables" base.tables
  let strikethrough ← settingOr flag? entries "strikethrough" base.strikethrough
  let tasks ← settingOr flag? entries "tasklists" base.tasks
  return { tables, strikethrough, tasks }

/-- The names of the settings of a dialect, in the order in which a list gives them. -/
def dialectNames : List String := ["tables", "strikethrough", "tasklists"]

/-- A dialect: a table, or a list of its settings. -/
def dialect? : Item → Option Markdown.Dialect
  | .table _ entries => dialectOf? entries
  | .list items => dialectOf? (dialectNames.zip items)
  | _ => none

/-! ## Files -/

def ofEntries? (entries : Entries) : Option Settings :=
  if entries.all fun e => names.contains e.1 then do
    let base : Settings := {}
    let breaks ← settingOr flag? entries "breaks" base.breaks
    let langClass ← settingOr (fun i => (text? i).map some) entries "lang_prefix" base.langClass
    let safeMode ← settingOr flag? entries "safe_mode" base.safeMode
    let sanitized ← settingOr flag? entries "sanitized" base.sanitized
    let highlight ← settingOr flag? entries "highlight" base.highlight
    let theme ← settingOr (fun i => (theme? i).map some) entries "theme" base.theme
    let dialect ← settingOr dialect? entries "tokenize" base.dialect
    return { breaks, langClass, safeMode, sanitized, highlight, theme, dialect }
  else none

def read? (text : String) : Option Settings :=
  (Toml.read? text).bind ofEntries?

end Settings
end RenderForest
