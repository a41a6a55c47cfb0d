import RenderForest.Hypertext.Branch
import RenderForest.Tree.Html
/-!
# Sanitized — a forest as harmless HTML

This file defines `toHtmlSanitized`, the text of a forest of which only harmless elements and
attributes are left.
-/

namespace RenderForest

/-- The text of a forest, read again as HTML and written with only what is harmless. -/
def toHtmlSanitized (nodes : List Node) : String :=
  Hypertext.keepHarmless (toHtml nodes)

end RenderForest
