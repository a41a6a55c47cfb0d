import RenderForest.Compile.Options
import RenderForest.Markup.Policy
import RenderForest.Stream.Annotate
/-!
# Fence — fenced code blocks

A fenced block is shown by a component, by a deferred load, or by the default render, which also
takes the place of everything that fails.  This file defines:

* `splitInfo`, the language and the arguments of an info string;
* `CodeBlock.ofToken`, what is known of a block;
* `DefaultFence.render`, the default render;
* `blockKey` and `KeyM`, the keys of rich blocks, which are counted up;
* `renderFence`, the render of a block.
-/

namespace RenderForest

/-! ## Blocks -/

/-- The language and the arguments of an info string: its first word and what follows. -/
def splitInfo (info : String) : String × String :=
  let s := Text.trim info.toList
  (String.ofList (s.takeWhile fun c => !Text.isBlank c),
    String.ofList (Text.trim (s.dropWhile fun c => !Text.isBlank c)))

/-- What is known of the block of a token.  The attributes are those that the annotation left, or
those of the token itself if there are none. -/
def CodeBlock.ofToken (t : Token) : CodeBlock :=
  let (language, arguments) := splitInfo t.info
  let mirrored := (t.details.map TokenMeta.attrs).getD []
  { language, arguments,
    content := t.content,
    attrs := if mirrored.isEmpty then Catalog.ofEntries t.attrs else mirrored,
    info := t.info }

/-! ## The default render -/

structure DefaultFence where
  langClass : String := ""
  highlight : Option Highlighter := none

namespace DefaultFence

def ofOptions (o : Options) : DefaultFence :=
  { langClass := o.langClass, highlight := o.highlight }

/-- The markup that the highlighter gives; a panic and an empty text count as none. -/
def highlighted (f : DefaultFence) (b : CodeBlock) : Option String :=
  match f.highlight with
  | none => none
  | some h =>
    match h b.content b.language b.arguments with
    | .value (some markup) => if markup.isEmpty then none else some markup
    | .value none => none
    | .panic _ => none

/-- The bookkeeping attributes of a list, behind the info string and the language. -/
def outerAttrs (attrs : List (String × String)) (b : CodeBlock) : Attributes :=
  (attrs.filter fun a => Safety.isValidAttributeName a.1 && isSourceAttr a.1).foldl
    (fun a (n, v) => a.set n v)
    ((Attributes.empty.set "data-info" b.info).set "data-lang" b.language)

/-- The other attributes of a list, with the class of the language. -/
def innerAttrs (f : DefaultFence) (attrs : List (String × String)) (b : CodeBlock) : Attributes :=
  let own := Attributes.ofListWhere
    (fun a => Safety.isValidAttributeName a.1 && !isSourceAttr a.1) attrs
  if b.language.isEmpty then own else own.mergeClass (f.langClass ++ b.language)

def frame (f : DefaultFence) (attrs : List (String × String)) (b : CodeBlock)
    (content : List Node) : Node :=
  .plain "pre" (outerAttrs attrs b) [.plain "code" (f.innerAttrs attrs b) content]

/-- Renders the block of a token: the content escaped or highlighted.  Markup that brings its own
`pre` element stands alone. -/
def render (f : DefaultFence) (attrs : List (String × String)) (b : CodeBlock) : Node :=
  match f.highlighted b with
  | none => f.frame attrs b [.text b.content]
  | some markup =>
    let nodes := Markup.parse markup .trusted
    if "<pre".toList.isPrefixOf markup.toList then Node.ofForest nodes
    else f.frame attrs b nodes

end DefaultFence

/-! ## Keys -/

/-- Computations that hand out keys; the state is the next number. -/
abbrev KeyM := StateM Nat

def keyText (language : String) (n : Nat) : String :=
  (if language.isEmpty then "code" else language) ++ "-" ++ toString n

def blockKey (language : String) : KeyM String := fun n =>
  (keyText language n, n + 1)

/-! ## Rendering -/

def runComponent (render : BlockProps → Answer (Except RenderError Node)) (p : BlockProps) :
    Rendering Node :=
  match render p with
  | .value (.ok n) => .node n
  | .value (.error e) => .failed e
  | .panic p => .panicked p

def Descriptor.isBlank (d : Descriptor) : Bool :=
  d.name.toList.all Text.isBlank

/-- The node of a block that was taken over; a descriptor without a name is refused. -/
def overrideNode (o : Options) (b : CodeBlock) (fallback : Node) : Override → KeyM (Option Node)
  | .component name render => fun n =>
    let key := keyText b.language n
    (some (.component
      { reference := .component name (runComponent render ⟨b, key, fallback⟩),
        key, block := b, fallback }), n + 1)
  | .descriptor d => fun n =>
    if d.isBlank then (none, n)
    else
      (some (.component
        { reference := .descriptor d, key := keyText b.language n, block := b, fallback }), n + 1)
  | .deferred loader => fun n =>
    (some (.deferred (Deferred.fresh (keyText b.language n) loader fallback o.deferred)), n + 1)

def fallbackNode (o : Options) (t : Token) : Node :=
  (DefaultFence.ofOptions o).render t.attrs (CodeBlock.ofToken t)

/-- Renders the block of a token; whatever fails gives way to the default render. -/
def renderFence (o : Options) (t : Token) : KeyM Node :=
  let block := CodeBlock.ofToken t
  let fallback := fallbackNode o t
  match o.resolver with
  | none => pure fallback
  | some resolve =>
    match resolve block with
    | .value (.ok (some found)) => do
      let node ← overrideNode o block fallback found
      pure (node.getD fallback)
    | .value (.ok none) => pure fallback
    | .value (.error _) => pure fallback
    | .panic _ => pure fallback

end RenderForest
