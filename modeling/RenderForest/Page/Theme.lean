import RenderForest.Text.Blank
/-!
# Theme — the colours of a page

This file defines:

* `Theme`, the three themes, and `Theme.name`;
* `Theme.ofName?`, which reads a name exactly, and `Theme.parse`, which ignores case;
* `Theme.refusal`, the wording for a name that is none.
-/

namespace RenderForest

/-- Light, dark, or as the reader's system prefers. -/
inductive Theme where
  | auto
  | light
  | dark
  deriving DecidableEq, Repr, Inhabited

namespace Theme

def name : Theme → String
  | .auto => "auto"
  | .light => "light"
  | .dark => "dark"

def all : List Theme := [.auto, .light, .dark]

/-- The theme of a name in small letters. -/
def ofName? (s : String) : Option Theme :=
  all.find? fun t => t.name == s

def refusal (s : String) : String :=
  "unknown theme `" ++ s ++ "` (expected auto, light or dark)"

/-- The theme of a name up to the case of ASCII letters, or the wording of the refusal. -/
def parse (s : String) : Except String Theme :=
  let folded := String.ofList (Text.fold s)
  match ofName? folded with
  | some t => .ok t
  | none => .error (refusal folded)

theorem ofName?_name (t : Theme) : ofName? t.name = some t := by
  cases t <;> rfl

end Theme
end RenderForest
