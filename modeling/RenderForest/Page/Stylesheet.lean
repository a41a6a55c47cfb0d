import RenderForest.Catalog
import RenderForest.Page.Theme
/-!
# Stylesheet — the look of a page

A stylesheet sets the colours of a theme as custom properties, then the properties that the
caller chose, and then the fixed rules that use them.  This file defines:

* `StyleRule` and its text;
* `lightPalette` and `darkPalette`, the colours of the themes, and `baseRules`, the fixed rules;
* `rootBlock`, a block of custom properties;
* `stylesheet`, the whole text.
-/

namespace RenderForest
namespace Page

/-! ## Rules -/

structure StyleRule where
  selectors : List String
  properties : List (String × String)
  deriving Repr

def writeProperty (indent : String) (property : String × String) : String :=
  indent ++ "  " ++ property.1 ++ ": " ++ property.2 ++ ";\n"

def StyleRule.text (r : StyleRule) : String :=
  ",\n".intercalate r.selectors ++ " \x7b\n" ++
    String.join (r.properties.map (writeProperty "")) ++ "\x7d\n"

/-! ## Colours -/

def lightPalette : Catalog String :=
  Catalog.ofEntries
    [ ("--marktree-bg", "#fbfbf8"),
      ("--marktree-fg", "#1f2328"),
      ("--marktree-muted", "#5f6b76"),
      ("--marktree-border", "#d8dee4"),
      ("--marktree-accent", "#2b6cb0"),
      ("--marktree-code-bg", "#f4f6f8"),
      ("--marktree-code-fg", "#1f2328"),
      ("--marktree-placeholder", "#eef1f4") ]

def darkPalette : Catalog String :=
  Catalog.ofEntries
    [ ("--marktree-bg", "#0e1116"),
      ("--marktree-fg", "#e6edf3"),
      ("--marktree-muted", "#9aa4af"),
      ("--marktree-border", "#2a313b"),
      ("--marktree-accent", "#63b3ed"),
      ("--marktree-code-bg", "#202634"),
      ("--marktree-code-fg", "#f0f6fc"),
      ("--marktree-placeholder", "#1b212b") ]

/-! ## The fixed rules -/

/-- The rules that do not depend on the theme. -/
def baseRules : List StyleRule :=
  [ ⟨["body"],
      [("margin", "0"), ("background", "var(--marktree-bg)"), ("color", "var(--marktree-fg)"),
       ("font-family",
        "-apple-system, BlinkMacSystemFont, \"Segoe UI\", Helvetica, Arial, " ++
        "sans-serif"), ("line-height", "1.6")]⟩,
    ⟨[".marktree"],
      [("max-width", "48rem"), ("margin", "0 auto"), ("padding", "2rem 1.25rem 4rem")]⟩,
    ⟨[".marktree h1", ".marktree h2", ".marktree h3", ".marktree h4", ".marktree h5",
      ".marktree h6"],
      [("line-height", "1.25"), ("margin", "1.6em 0 0.6em")]⟩,
    ⟨[".marktree h1"],
      [("font-size", "2rem"), ("border-bottom", "1px solid var(--marktree-border)"),
       ("padding-bottom", "0.3em")]⟩,
    ⟨[".marktree a"],
      [("color", "var(--marktree-accent)")]⟩,
    ⟨[".marktree blockquote"],
      [("margin", "1em 0"), ("padding", "0 1em"), ("color", "var(--marktree-muted)"),
       ("border-left", "0.25em solid var(--marktree-border)")]⟩,
    ⟨[".marktree hr"],
      [("border", "0"), ("border-top", "1px solid var(--marktree-border)"), ("margin", "2em 0")]⟩,
    ⟨[".marktree code"],
      [("font-family", "ui-monospace, SFMono-Regular, Menlo, Consolas, monospace"),
       ("font-size", "0.9em"), ("background", "var(--marktree-code-bg)"),
       ("color", "var(--marktree-code-fg)"), ("border-radius", "4px"),
       ("padding", "0.1em 0.3em")]⟩,
    ⟨[".marktree pre"],
      [("background", "var(--marktree-code-bg)"), ("border", "1px solid var(--marktree-border)"),
       ("border-radius", "6px"), ("padding", "0.9em 1em"), ("overflow-x", "auto")]⟩,
    ⟨[".marktree pre > code"],
      [("background", "transparent"), ("padding", "0"), ("font-size", "0.875em"),
       ("white-space", "pre")]⟩,
    ⟨[".marktree table"],
      [("border-collapse", "collapse"), ("margin", "1em 0")]⟩,
    ⟨[".marktree th", ".marktree td"],
      [("border", "1px solid var(--marktree-border)"), ("padding", "0.4em 0.8em")]⟩,
    ⟨[".marktree img", ".marktree video"],
      [("max-width", "100%")]⟩,
    ⟨[".marktree audio"],
      [("width", "100%")]⟩,
    ⟨[".marktree .task-list-item-checkbox"],
      [("margin", "0 0.4em 0 -1.3em"), ("vertical-align", "middle")]⟩,
    ⟨[".marktree .rich-block-loading"],
      [("background", "var(--marktree-placeholder)"),
       ("border", "1px dashed var(--marktree-border)"), ("border-radius", "6px"),
       ("color", "var(--marktree-muted)"), ("padding", "1.5em"), ("text-align", "center")]⟩ ]

/-- The text of the fixed rules, with an empty line between two of them. -/
def baseText : String :=
  "\n".intercalate (baseRules.map StyleRule.text)

/-! ## The whole sheet -/

/-- A block of custom properties, which may also declare the two colour schemes. -/
def rootBlock (indent : String) (schemes : Bool) (palette : Catalog String) : String :=
  indent ++ ":root \x7b\n" ++
    (if schemes then indent ++ "  color-scheme: light dark;\n" else "") ++
    String.join (palette.map (writeProperty indent)) ++ indent ++ "\x7d\n"

def themeBlocks : Theme → String
  | .light => rootBlock "" true lightPalette
  | .dark => rootBlock "" true darkPalette
  | .auto =>
    rootBlock "" true lightPalette ++ "@media (prefers-color-scheme: dark) \x7b\n" ++
      rootBlock "  " true darkPalette ++ "\x7d\n"

def stylesheet (theme : Theme) (custom : Catalog String) : String :=
  themeBlocks theme ++ (if custom.isEmpty then "" else rootBlock "" false custom) ++ baseText

end Page
end RenderForest
