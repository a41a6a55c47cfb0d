import RenderForest.Catalog
import RenderForest.Compile.Compiler
import RenderForest.Compile.Fence
import RenderForest.Compile.Forest
import RenderForest.Compile.Options
import RenderForest.Compile.Rule
import RenderForest.Decimal.Shortest
import RenderForest.Hypertext.Adoption
import RenderForest.Hypertext.Arena
import RenderForest.Hypertext.Branch
import RenderForest.Hypertext.Category
import RenderForest.Hypertext.Host
import RenderForest.Hypertext.Rules
import RenderForest.Hypertext.Sketch
import RenderForest.Hypertext.Token
import RenderForest.Hypertext.Url
import RenderForest.Json.Decode
import RenderForest.Json.Draft
import RenderForest.Json.Error
import RenderForest.Json.Value
import RenderForest.Main
import RenderForest.Markdown.Assembly
import RenderForest.Markdown.Block
import RenderForest.Markdown.Codec
import RenderForest.Markdown.Document
import RenderForest.Markdown.Emphasis
import RenderForest.Markdown.Event
import RenderForest.Markdown.Inline
import RenderForest.Markdown.Line
import RenderForest.Markdown.Mark
import RenderForest.Markdown.Piece
import RenderForest.Markdown.RawTag
import RenderForest.Markdown.Reading
import RenderForest.Markdown.Source
import RenderForest.Markdown.Target
import RenderForest.Markup.Cache
import RenderForest.Markup.Dom
import RenderForest.Markup.Policy
import RenderForest.Markup.Vector
import RenderForest.Outcome
import RenderForest.Page.Document
import RenderForest.Page.PlainText
import RenderForest.Page.Stylesheet
import RenderForest.Page.Theme
import RenderForest.Proofs.Compile.BlockKeys
import RenderForest.Proofs.Compile.BuiltIn
import RenderForest.Proofs.Compile.CodeBlocks
import RenderForest.Proofs.Compile.HiddenWrappers
import RenderForest.Proofs.Compile.NamedOnce
import RenderForest.Proofs.Compile.Overrides
import RenderForest.Proofs.Compile.Processes
import RenderForest.Proofs.Compile.RawContents
import RenderForest.Proofs.Compile.Reannotated
import RenderForest.Proofs.Compile.SafeMode
import RenderForest.Proofs.Compile.SharedCache
import RenderForest.Proofs.Compile.ShownElements
import RenderForest.Proofs.Compile.Sights
import RenderForest.Proofs.Compile.Spelled
import RenderForest.Proofs.Compile.TokenIndex
import RenderForest.Proofs.Deferred.Session
import RenderForest.Proofs.Deferred.Settling
import RenderForest.Proofs.Deferred.Story
import RenderForest.Proofs.Deferred.Views
import RenderForest.Proofs.Forest.Assembly
import RenderForest.Proofs.Forest.Compiled
import RenderForest.Proofs.Forest.DocumentOrder
import RenderForest.Proofs.Forest.OpenTokens
import RenderForest.Proofs.Forest.Outline
import RenderForest.Proofs.Forest.Segments
import RenderForest.Proofs.Forest.Slots
import RenderForest.Proofs.Forest.Splices
import RenderForest.Proofs.Html.CommentText
import RenderForest.Proofs.Html.Outline
import RenderForest.Proofs.Html.Pieces
import RenderForest.Proofs.Html.ReadBack
import RenderForest.Proofs.Html.Scanner
import RenderForest.Proofs.Html.TagText
import RenderForest.Proofs.Json.Equality
import RenderForest.Proofs.Json.Readings
import RenderForest.Proofs.Json.Reordered
import RenderForest.Proofs.Markdown.Balance
import RenderForest.Proofs.Markdown.Gathering
import RenderForest.Proofs.Markdown.KeptFields
import RenderForest.Proofs.Markdown.KeptText
import RenderForest.Proofs.Markdown.Ledger
import RenderForest.Proofs.Markdown.LimitedLines
import RenderForest.Proofs.Markdown.LineNesting
import RenderForest.Proofs.Markdown.MadeTokens
import RenderForest.Proofs.Markdown.Payload
import RenderForest.Proofs.Markdown.Scope
import RenderForest.Proofs.Markdown.TaskBoxes
import RenderForest.Proofs.Markup.CleanedFragments
import RenderForest.Proofs.Markup.Drawings
import RenderForest.Proofs.Markup.FragmentTags
import RenderForest.Proofs.Markup.Policies
import RenderForest.Proofs.Markup.Recency
import RenderForest.Proofs.Markup.Recleaned
import RenderForest.Proofs.Markup.RereadOutlines
import RenderForest.Proofs.Markup.RereadTags
import RenderForest.Proofs.Markup.RereadTrees
import RenderForest.Proofs.Markup.SafeMarkup
import RenderForest.Proofs.Markup.StartTags
import RenderForest.Proofs.Markup.Stored
import RenderForest.Proofs.Markup.WrittenAttributes
import RenderForest.Proofs.Markup.WrittenTags
import RenderForest.Proofs.Page.ColouredText
import RenderForest.Proofs.Safety.FoldedValues
import RenderForest.Proofs.Safety.Schemes
import RenderForest.Proofs.Safety.SourceSets
import RenderForest.Proofs.Settings.Declared
import RenderForest.Proofs.Source.LineMarks
import RenderForest.Proofs.Source.LineShifts
import RenderForest.Proofs.Source.Lines
import RenderForest.Proofs.Stream.AttributeViews
import RenderForest.Proofs.Stream.Nested
import RenderForest.Proofs.Stream.Neutralized
import RenderForest.Proofs.Stream.Rereading
import RenderForest.Proofs.Text.Blanks
import RenderForest.Proofs.Text.Escaped
import RenderForest.Proofs.Text.EscapedForms
import RenderForest.Proofs.Text.Splitting
import RenderForest.Proofs.Text.Words
import RenderForest.Proofs.Toml.DistinctNames
import RenderForest.Proofs.Toml.Layouts
import RenderForest.Proofs.Tree.Blocks
import RenderForest.Proofs.Tree.ClassLists
import RenderForest.Proofs.Tree.Elements
import RenderForest.Proofs.Tree.Entries
import RenderForest.Proofs.Tree.Histories
import RenderForest.Proofs.Tree.Sights
import RenderForest.Proofs.Tree.Sorted
import RenderForest.Proofs.Tree.Writable
import RenderForest.Proofs.Xml.ReadTrees
import RenderForest.Proofs.Xml.WrittenText
import RenderForest.Request
import RenderForest.Safety
import RenderForest.Settings
import RenderForest.Source.Env
import RenderForest.Source.LineMap
import RenderForest.Source.LineRange
import RenderForest.Stream.Annotate
import RenderForest.Stream.Codec
import RenderForest.Stream.Token
import RenderForest.Text.Blank
import RenderForest.Text.Escape
import RenderForest.Text.Folding
import RenderForest.Text.Inspect
import RenderForest.Text.NamedReferences
import RenderForest.Text.Punctuation
import RenderForest.Text.Ranges
import RenderForest.Text.Reference
import RenderForest.Toml.Document
import RenderForest.Toml.Item
import RenderForest.Toml.Quoted
import RenderForest.Toml.Scalar
import RenderForest.Tree.Attributes
import RenderForest.Tree.Codec
import RenderForest.Tree.Deferred
import RenderForest.Tree.Host
import RenderForest.Tree.Html
import RenderForest.Tree.Node
import RenderForest.Tree.Sanitized
import RenderForest.Xml.CharData
import RenderForest.Xml.Document
import RenderForest.Xml.Name
