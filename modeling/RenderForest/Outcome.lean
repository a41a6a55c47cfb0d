import RenderForest.Compile.Compiler
import RenderForest.Markdown.Assembly
import RenderForest.Page.Document
import RenderForest.Page.PlainText
import RenderForest.Request
import RenderForest.Settings
import RenderForest.Stream.Codec
import RenderForest.Tree.Codec
import RenderForest.Tree.Sanitized
/-!
# Outcome — what a command line leads to

The answer to a request depends on the contents of the files that it names and on its input.
This file defines:

* `Job`, the settings of a request and its file taken together;
* `Job.forest` and `Job.write`, the forest of an input and its text;
* `Outcome`, an exit code with what is written, and `Outcome.ofWords`, that of a command line.
-/

namespace RenderForest

/-! ## Faults -/

inductive Fault where
  | unreadable (path : String)
  | unreadableInput
  | badSettings (path : String)
  | badTokens (e : Json.Error)

def Fault.message : Fault → String
  | .unreadable path => "failed to read " ++ path
  | .unreadableInput => "failed to read stdin"
  | .badSettings path => "invalid config " ++ path
  | .badTokens e => Token.streamFault e

/-! ## Jobs -/

structure Job where
  tokens : Bool
  format : Format
  sanitized : Bool
  theme : Theme
  dialect : Markdown.Dialect
  env : Env
  options : Options

namespace Job

/-- Highlights the blocks of plain text. -/
def highlighter (theme : Theme) : Highlighter := fun code language _ =>
  .value (PlainText.highlight theme code language)

/-- What is set by the words or the file; a value from the words goes first. -/
def ofRequest (r : Request) (s : Settings) : Job :=
  let base : Options := {}
  let theme := (r.theme.or s.theme).getD .auto
  { tokens := r.tokens
    format := r.format.getD .html
    sanitized := r.sanitized || s.sanitized
    theme
    dialect := s.dialect
    env := { safeMode := r.safe || s.safeMode }
    options :=
      { base with
        breaks := r.breaks || s.breaks
        langClass := (r.langClass.or s.langClass).getD base.langClass
        highlight := if r.highlight || s.highlight then some (highlighter theme) else none } }

def forest (j : Job) (source : String) : Except Fault (List Node) :=
  let compiler : Compiler := { options := j.options }
  if j.tokens then
    match Token.readStream source with
    | .ok tokens => .ok ((compiler.compile j.env tokens).run {}).1
    | .error e => .error (.badTokens e)
  else
    let tokens := Markdown.tokenize j.dialect source
    .ok ((compiler.compile (j.env.withLineMarks source) tokens).run {}).1

def html (j : Job) (nodes : List Node) : String :=
  if j.sanitized then toHtmlSanitized nodes else toHtml nodes

def write (j : Job) (nodes : List Node) : String :=
  match j.format with
  | .html => j.html nodes
  | .json => (forestToJson nodes).pretty
  | .page => Page.embed (some (Page.stylesheet j.theme [])) (j.html nodes)

end Job

/-! ## Outcomes -/

structure Outcome where
  code : Nat
  answer : String := ""
  report : String := ""
  deriving DecidableEq, Repr

namespace Outcome

def versionText : String := "marktree 0.1.0\n"

def helpText : String :=
  "Compile Markdown into a render tree\n\nUsage: marktree [OPTIONS] [INPUT]\n\nArguments:\n" ++
  "  [INPUT]  Markdown file, or token JSON with --tokens; stdin when omitted\n\nOptions:\n" ++
  "      --tokens                Treat the input as a markdown-it token JSON array\n" ++
  "      --format <FORMAT>       Output format [default: html] " ++
    "[possible values: html, json, page]\n" ++
  "      --safe                  Neutralize unsafe URLs and raw markup\n" ++
  "      --sanitized             Run the HTML through an allow-list sanitizer\n" ++
  "      --breaks                Render soft line breaks as <br>\n" ++
  "      --lang-prefix <PREFIX>  Class prefix for fenced code languages\n" ++
  "      --highlight             Syntax-highlight fenced code\n" ++
  "      --theme <THEME>         Color theme for highlighting and --format page: " ++
    "auto, light or dark\n" ++
  "      --config <FILE>         TOML file with default settings; flags take precedence\n" ++
  "  -h, --help                  Print help\n" ++
  "  -V, --version               Print version\n"

def misuse : Outcome :=
  { code := 2, report := "Usage: marktree [OPTIONS] [INPUT]\n" }

def fileText (files : String → Option String) (path : String) : Except Fault String :=
  match files path with
  | some text => .ok text
  | none => .error (.unreadable path)

def settingsOf (files : String → Option String) (r : Request) : Except Fault Settings :=
  match r.config with
  | none => .ok {}
  | some path => do
    let text ← fileText files path
    match Settings.read? text with
    | some s => .ok s
    | none => .error (.badSettings path)

def inputOf (files : String → Option String) (input : Option String) (r : Request) :
    Except Fault String :=
  match r.input with
  | some path => fileText files path
  | none =>
    match input with
    | some text => .ok text
    | none => .error .unreadableInput

def answerOf (files : String → Option String) (input : Option String) (r : Request) :
    Except Fault String := do
  let settings ← settingsOf files r
  let source ← inputOf files input r
  let job := Job.ofRequest r settings
  let nodes ← job.forest source
  return Page.endLine (job.write nodes)

def ofRequest (files : String → Option String) (input : Option String) (r : Request) : Outcome :=
  match answerOf files input r with
  | .ok answer => { code := 0, answer }
  | .error fault => { code := 1, report := "marktree: " ++ fault.message ++ "\n" }

def ofReading (files : String → Option String) (input : Option String) :
    Request.Reading → Outcome
  | .request r => ofRequest files input r
  | .help => { code := 0, answer := helpText }
  | .version => { code := 0, answer := versionText }
  | .misuse => misuse

/-- The outcome of a command line, given the contents of files and the input. -/
def ofWords (files : String → Option String) (input : Option String) (words : List String) :
    Outcome :=
  ofReading files input (Request.read {} words)

end Outcome
end RenderForest
