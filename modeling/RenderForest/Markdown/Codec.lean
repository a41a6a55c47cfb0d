import RenderForest.Json.Decode
import RenderForest.Markdown.Piece
/-!
# Codec — the choice of a dialect as JSON

This file defines:

* `Dialect.decoder`; a field that is missing leaves its extension on.
-/

namespace RenderForest
namespace Markdown

open Json

def Dialect.decoder : Decoder Dialect :=
  .record "TokenizeOptions"
    [ .of "tables" .bool fun v d => { d with tables := v },
      .of "strikethrough" .bool fun v d => { d with strikethrough := v },
      .of "tasklists" .bool fun v d => { d with tasks := v } ]
    {}

end Markdown
end RenderForest
