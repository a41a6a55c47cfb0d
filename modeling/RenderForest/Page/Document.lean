import RenderForest.Page.Stylesheet
/-!
# Document — a fragment as a page of its own

This file defines:

* `Page.styleLines`, the stylesheet inside the head, or a link to it;
* `Page.embed`, the whole document.
-/

namespace RenderForest
namespace Page

def stylesheetFile : String := "marktree.css"

def styleLines (sheet : Option String) : String :=
  match sheet with
  | some css => "  <style>\n" ++ css ++ "\n  </style>\n"
  | none => "  <link rel=\"stylesheet\" href=\"" ++ stylesheetFile ++ "\" />\n"

def endLine (s : String) : String :=
  if s.toList.getLast? == some '\n' then s else s ++ "\n"

def embed (sheet : Option String) (html : String) : String :=
  "<!DOCTYPE html>\n<html lang=\"en\">\n<head>\n  <meta charset=\"utf-8\" />\n" ++
    "  <meta name=\"viewport\" content=\"width=device-width, initial-scale=1\" />\n" ++
    styleLines sheet ++ "</head>\n<body>\n<main class=\"marktree\">\n" ++ endLine html ++
    "</main>\n</body>\n</html>\n"

end Page
end RenderForest
