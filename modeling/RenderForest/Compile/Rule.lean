import RenderForest.Compile.Fence
/-!
# Rule — how the kinds of tokens are rendered

A rule turns one token of a stream into render nodes; kinds without a rule get the generic
render.  This file defines:

* `RuleOutput` and `Rule`;
* `Token.validAttrs`, `Token.checkedAttrs` and `inlineText`, which the rules share;
* `Token.generic`, the generic render;
* `RuleTable`, the rules by kind, and `RuleTable.standard`, the built-in ones.
-/

namespace RenderForest

/-! ## Rules -/

inductive RuleOutput where
  | node (n : Node)
  /-- Several siblings, which stand in a fragment. -/
  | nodes (ns : List Node)
  | markup (raw : String)
  /-- `node` is shown, and `parent` is its last child; what an opening token holds goes into
  `parent`. -/
  | nested (node parent : Node)
  /-- The tokens inside are compiled, and the nodes wrapped. -/
  | inner (wrap : List Node → Node)
  | suppress

/-- What a rule sees: the stream, the index of its token in it, the settings and the
surroundings. -/
structure RuleInput where
  stream : List Token
  index : Nat
  token : Token
  options : Options
  env : Env

/-- Renders a token; rich blocks take their keys from the state. -/
abbrev Rule := RuleInput → KeyM RuleOutput

def Rule.ofToken (render : Token → RuleOutput) : Rule := fun input =>
  pure (render input.token)

/-! ## Attributes and texts -/

def Token.validAttrs (t : Token) : Attributes :=
  Attributes.ofListWhere (fun a => Safety.isValidAttributeName a.1) t.attrs

def Token.checkedAttrs (t : Token) : Attributes :=
  Attributes.ofListWhere
    (fun a => Safety.isValidAttributeName a.1 && Safety.isSafeValue a.1 a.2) t.attrs

mutual

/-- The text that a token shows, without its markup. -/
def Token.inlineText : Token → String
  | ⟨kind, _, _, _, _, _, children, content, _, _, _, _, _⟩ =>
    if kind == "text" || kind == "code_inline" then content
    else if kind == "softbreak" || kind == "hardbreak" then "\n"
    else Token.innerText children

def Token.innerText : Option (List Token) → String
  | none => ""
  | some ts => Token.listText ts

def Token.listText : List Token → String
  | [] => ""
  | t :: rest => t.inlineText ++ Token.listText rest

end

def inlineText (tokens : List Token) : String :=
  Token.listText tokens

/-! ## The generic render -/

/-- The tag that stands for a comment. -/
def commentTag : String := "--"

/-- The render of a token without a rule: nothing for an end, an element with its tag otherwise;
hidden tokens and those without a tag show only what they hold. -/
def Token.generic (t : Token) : Option Node :=
  match t.nesting with
  | .closing => none
  | _ =>
    if t.hidden then some .empty
    else if t.tag == commentTag then some (.comment t.content)
    else if t.tag == "" then some .empty
    else some (.plain t.tag t.validAttrs [])

/-- What the generic render makes of an end, and of any other token. -/
theorem Token.generic_cases (t : Token) :
    t.nesting = .closing ∧ t.generic = none ∨
      t.nesting ≠ .closing ∧
        (t.generic = some .empty ∨
          t.tag = commentTag ∧ t.generic = some (.comment t.content) ∨
            t.tag ≠ commentTag ∧ t.generic = some (.plain t.tag t.validAttrs [])) := by
  unfold Token.generic
  split
  · rename_i hclosing
    exact Or.inl ⟨hclosing, rfl⟩
  · rename_i hclosing
    refine Or.inr ⟨hclosing, ?_⟩
    -- A hidden token, a comment, no tag, and an element.
    split
    · exact Or.inl rfl
    · split
      · rename_i hcomment
        exact Or.inr (Or.inl ⟨eq_of_beq hcomment, rfl⟩)
      · rename_i hcomment
        split
        · exact Or.inl rfl
        · exact Or.inr (Or.inr ⟨fun heq => hcomment (beq_iff_eq.2 heq), rfl⟩)

theorem Token.generic_eq_some {t : Token} {n : Node} (h : t.generic = some n) :
    n = .empty ∨ n = .comment t.content ∨ n = .plain t.tag t.validAttrs [] := by
  rcases t.generic_cases with ⟨_, hnone⟩ | ⟨_, hempty | ⟨_, hcomment⟩ | ⟨_, hplain⟩⟩
  · cases hnone.symm.trans h
  · exact Or.inl (Option.some.inj (h.symm.trans hempty))
  · exact Or.inr (Or.inl (Option.some.inj (h.symm.trans hcomment)))
  · exact Or.inr (Or.inr (Option.some.inj (h.symm.trans hplain)))

/-! ## The built-in rules -/

namespace Rule

def text : Rule := .ofToken fun t => .node (.text t.content)

def breakNode : Node := .plain "br" .empty []

def hardBreak : Rule := .ofToken fun _ => .node breakNode

/-- A soft line break is a break if the settings say so. -/
def softBreak : Rule := fun input =>
  pure (if input.options.breaks then .node breakNode else .suppress)

/-- An image shows the text inside as its alternative. -/
def image : Rule := .ofToken fun t =>
  .node (.plain "img" (t.checkedAttrs.set "alt" (inlineText t.inner)) [])

/-- Audio and video get controls, and a handler for the end of picture-in-picture. -/
def media : Rule := .ofToken fun t =>
  let tag := if t.tag.isEmpty then t.kind else t.tag
  let attrs := (t.checkedAttrs.set "controls" "true").set "controlsList" "nodownload"
  .node (.element tag attrs [⟨"leavepictureinpicture", .pauseIfDetachedElseScrollIntoView⟩] [])

/-- A code span keeps all its attributes. -/
def codeSpan : Rule := .ofToken fun t =>
  .node (.plain "code" (Attributes.ofList t.attrs) [.text t.content])

/-- An indented code block keeps its bookkeeping attributes on the outer element. -/
def codeBlock : Rule := .ofToken fun t =>
  let outer := Attributes.ofListWhere
    (fun a => Safety.isValidAttributeName a.1 && isSourceAttr a.1) t.attrs
  let inner := Attributes.ofListWhere
    (fun a => Safety.isValidAttributeName a.1 && !isSourceAttr a.1) t.attrs
  .node (.plain "pre" outer [.plain "code" inner [.text t.content]])

def fence : Rule := fun input => do
  let node ← renderFence input.options input.token
  pure (.node node)

/-- Raw markup, unless its node was computed beforehand. -/
def rawMarkup : Rule := .ofToken fun t =>
  match t.details.bind TokenMeta.node with
  | some n => .node n
  | none => .markup t.content

end Rule

/-! ## Tables -/

abbrev RuleTable := Catalog Rule

namespace RuleTable

def find? (t : RuleTable) (kind : String) : Option Rule :=
  t.lookup kind

def erase (t : RuleTable) (kind : String) : RuleTable :=
  t.filter fun e => e.1 != kind

def names (t : RuleTable) : List String :=
  t.map (·.1)

def standard : RuleTable :=
  Catalog.ofEntries
    [ ("text", Rule.text),
      ("hardbreak", Rule.hardBreak),
      ("softbreak", Rule.softBreak),
      ("image", Rule.image),
      ("audio", Rule.media),
      ("video", Rule.media),
      ("code_inline", Rule.codeSpan),
      ("code_block", Rule.codeBlock),
      ("fence", Rule.fence),
      ("html_block", Rule.rawMarkup),
      ("html_inline", Rule.rawMarkup) ]

end RuleTable
end RenderForest
