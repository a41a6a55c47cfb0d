import RenderForest.Proofs.Compile.CodeBlocks
import RenderForest.Proofs.Compile.Overrides
import RenderForest.Proofs.Compile.SharedCache
import RenderForest.Proofs.Compile.ShownElements
import RenderForest.Proofs.Markup.StartTags
import RenderForest.Proofs.Stream.Rereading
import RenderForest.Proofs.Tree.Histories
/-!
# NamedOnce — no element has two attributes of one name

An attribute list may hold a name twice, since an entry may be pushed without a look at the
others.  This file defines:

* `NamedOnce`, that no name is repeated on an element;
* `Rule.NamesOnce`, that a rule makes only such elements, unless its token brings others;

and shows in `namesOnce_standard` that the built-in rules are such rules, and in
`run_and_compile_named_once` that lists which are edited step by step hold each name once, and so
do all elements that are compiled from a stream which was read, raw markup included.
-/

namespace RenderForest

/-- No attribute name is repeated on an element, whatever its tag is. -/
def NamedOnce (_tag : String) (attrs : Attributes) : Prop :=
  (Attributes.names attrs.entries).Nodup

instance (tag : String) (attrs : Attributes) : Decidable (NamedOnce tag attrs) :=
  inferInstanceAs (Decidable (Attributes.names attrs.entries).Nodup)

theorem namedOnce_ofList (tag : String) (l : List (String × String)) :
    NamedOnce tag (Attributes.ofList l) :=
  Attributes.nodup_names_ofList l

theorem NamedOnce.set {tag : String} {attrs : Attributes} (h : NamedOnce tag attrs)
    (name value : String) : NamedOnce tag (attrs.set name value) :=
  Attributes.nodup_names_setEntries h

theorem namedOnce_empty (tag : String) : NamedOnce tag .empty :=
  List.nodup_nil

/-! ## Raw markup -/

namespace Markup

/-- Under every policy the attributes of a tag are set one after another. -/
theorem namedOnce_toAttributes (policy : Policy) (tag : String) (raw : RawAttributes) :
    NamedOnce tag (raw.toAttributes policy) := by
  have hstep : ∀ attrs : Attributes, NamedOnce tag attrs → ∀ a : String × Option String,
      NamedOnce tag (filterInto policy attrs a) := by
    rintro attrs h ⟨name, value⟩
    unfold filterInto
    dsimp only
    -- An attribute is dropped, emptied or set.
    split
    · exact h
    · split
      · exact h.set name ""
      · exact h.set name _
  exact List.foldlRecOn (motive := NamedOnce tag) raw.toList _ (namedOnce_empty tag)
    fun attrs h a _ => hstep attrs h a

theorem namedOnce_trustedNodes (raw : String) : Node.EveryIn NamedOnce (trustedNodes raw) :=
  (everyIn_trustedNodes raw).2 fun x _ => namedOnce_toAttributes .trusted x.1 x.2

mutual

theorem namedOnce_toNodes (policy : Policy) : ∀ d : Dom, Node.EveryIn NamedOnce (d.toNodes policy)
  | .text _ => Node.everyIn_text
  | .comment _ => Node.everyIn_cons.2 ⟨Node.every_comment, Node.everyIn_nil⟩
  | .element name attrs source children => by
    rw [Dom.toNodes]
    -- A dangerous element, a drawing and any other element.
    split
    · exact Node.everyIn_nil
    · split
      · exact namedOnce_trustedNodes _
      · have hattrs := namedOnce_toAttributes policy name attrs
        have hchildren := namedOnce_listToNodes policy children
        exact Node.everyIn_cons.2 ⟨Node.every_plain.2 ⟨hattrs, hchildren⟩, Node.everyIn_nil⟩

theorem namedOnce_listToNodes (policy : Policy) :
    ∀ ds : List Dom, Node.EveryIn NamedOnce (Dom.listToNodes policy ds)
  | [] => Node.everyIn_nil
  | d :: rest => by
    rw [Dom.listToNodes]
    exact Node.everyIn_append.2 ⟨namedOnce_toNodes policy d, namedOnce_listToNodes policy rest⟩

end

/-- Raw markup may repeat names, but its elements do not. -/
theorem namedOnce_parse (raw : String) (policy : Policy) :
    Node.EveryIn NamedOnce (parse raw policy) :=
  namedOnce_listToNodes policy (read raw)

end Markup

/-! ## Code blocks -/

theorem namedOnce_codeFrame {outer inner : Attributes} (houter : NamedOnce "pre" outer)
    (hinner : NamedOnce "code" inner) (text : String) :
    (codeFrame outer inner text).Every NamedOnce := by
  have hcode : (Node.plain "code" inner [.text text]).Every NamedOnce :=
    Node.every_plain.2 ⟨hinner, Node.everyIn_text⟩
  exact Node.every_plain.2 ⟨houter, Node.everyIn_cons.2 ⟨hcode, trivial⟩⟩

namespace DefaultFence

theorem namedOnce_outerAttrs (tag : String) (l : List (String × String)) (b : CodeBlock) :
    NamedOnce tag (outerAttrs l b) :=
  Attributes.nodup_names_foldl_set (((namedOnce_empty tag).set _ _).set _ _)

theorem namedOnce_frame (f : DefaultFence) (l : List (String × String)) (b : CodeBlock)
    {content : List Node} (h : Node.EveryIn NamedOnce content) :
    (f.frame l b content).Every NamedOnce := by
  have hinner : (Node.plain "code" (f.innerAttrs l b) content).Every NamedOnce :=
    Node.every_plain.2 ⟨nodup_names_innerAttrs f l b, h⟩
  exact Node.every_plain.2 ⟨namedOnce_outerAttrs "pre" l b, Node.everyIn_cons.2 ⟨hinner, trivial⟩⟩

end DefaultFence

/-- The default render, with whatever markup the highlighter gives. -/
theorem namedOnce_fallbackNode (o : Options) (t : Token) :
    (fallbackNode o t).Every NamedOnce := by
  rw [fallbackNode, DefaultFence.render]
  split
  · exact DefaultFence.namedOnce_frame _ _ _ Node.everyIn_text
  · rename_i markup _
    have hparse := Markup.namedOnce_parse markup .trusted
    dsimp only
    split
    · exact hparse.every_ofForest
    · exact DefaultFence.namedOnce_frame _ _ _ hparse

/-! ## Tokens and rules -/

namespace Token

/-- The node that was computed for a token beforehand, if any, has no element with a repeated
name. -/
def BringsOnce (t : Token) : Prop :=
  ∀ n, t.details.bind TokenMeta.node = some n → n.Every NamedOnce

theorem namedOnce_generic (t : Token) {n : Node} (hn : t.generic = some n) :
    n.Every NamedOnce := by
  rcases generic_eq_some hn with rfl | rfl | rfl
  · exact Node.every_empty
  · exact Node.every_comment
  · exact Node.every_plain.2 ⟨t.nodup_names_validAttrs, Node.everyIn_nil⟩

end Token

/-- Unless a resolver takes over blocks, a rule makes elements without a repeated name, if its
token brings no others. -/
def Rule.NamesOnce (r : Rule) : Prop :=
  ∀ (input : RuleInput) (n : Nat), input.options.resolver = none → input.token.BringsOnce →
    (r input n).1.Every NamedOnce input.env.policy

namespace Rule

theorem namesOnce_ofToken {render : Token → RuleOutput}
    (h : ∀ t, t.BringsOnce → ∀ policy, (render t).Every NamedOnce policy) :
    (Rule.ofToken render).NamesOnce :=
  fun input _ _ ht => h input.token ht input.env.policy

theorem namesOnce_text : text.NamesOnce :=
  namesOnce_ofToken fun t _ _ => (Node.every_text : (Node.text t.content).Every NamedOnce)

theorem namedOnce_breakNode : breakNode.Every NamedOnce :=
  Node.every_plain.2 ⟨namedOnce_empty "br", Node.everyIn_nil⟩

theorem namesOnce_hardBreak : hardBreak.NamesOnce :=
  namesOnce_ofToken fun _ _ _ => namedOnce_breakNode

theorem namesOnce_softBreak : softBreak.NamesOnce := by
  intro input n _ _
  show RuleOutput.Every _ _ (if input.options.breaks then .node breakNode else .suppress)
  split
  · exact namedOnce_breakNode
  · trivial

theorem namesOnce_image : image.NamesOnce :=
  namesOnce_ofToken fun t _ _ =>
    Node.every_plain.2 ⟨(namedOnce_ofList "img" _).set "alt" (inlineText t.inner), Node.everyIn_nil⟩

theorem namesOnce_media : media.NamesOnce :=
  namesOnce_ofToken fun _ _ _ =>
    ⟨((namedOnce_ofList _ _).set "controls" "true").set "controlsList" "nodownload",
      Node.everyIn_nil⟩

theorem namesOnce_codeSpan : codeSpan.NamesOnce :=
  namesOnce_ofToken fun t _ _ =>
    Node.every_plain.2 ⟨namedOnce_ofList "code" t.attrs, Node.everyIn_text⟩

theorem namesOnce_codeBlock : codeBlock.NamesOnce := by
  intro input n _ _
  rw [codeBlock_eq_codeFrame]
  exact namedOnce_codeFrame input.token.nodup_names_sourceAttrs input.token.nodup_names_ownAttrs _

theorem namesOnce_fence : fence.NamesOnce := by
  intro input n hresolver _
  have hrender := renderFence_of_resolver_eq_none (t := input.token) hresolver
  show (renderFence input.options input.token n).1.Every NamedOnce
  rw [hrender]
  exact namedOnce_fallbackNode input.options input.token

/-- Raw markup shows the node that its token brings, or is parsed. -/
theorem namesOnce_rawMarkup : rawMarkup.NamesOnce := by
  apply namesOnce_ofToken
  intro t ht policy
  split
  · rename_i n hn
    exact ht n hn
  · exact Markup.namedOnce_parse t.content policy

end Rule

theorem RuleTable.namesOnce_standard : ∀ e ∈ RuleTable.standard, e.2.NamesOnce := by
  refine forall_mem_standard fun kind r hr => ?_
  cases hr with
  | text => exact Rule.namesOnce_text
  | hardBreak => exact Rule.namesOnce_hardBreak
  | softBreak => exact Rule.namesOnce_softBreak
  | image => exact Rule.namesOnce_image
  | media => exact Rule.namesOnce_media
  | codeSpan => exact Rule.namesOnce_codeSpan
  | codeBlock => exact Rule.namesOnce_codeBlock
  | fence => exact Rule.namesOnce_fence
  | rawMarkup => exact Rule.namesOnce_rawMarkup

/-! ## Forests -/

/-- No resolver takes over blocks, and all rules make elements without a repeated name. -/
structure Compiler.NamesOnce (c : Compiler) : Prop where
  resolver : c.options.resolver = none
  rules : ∀ e ∈ c.rules, e.2.NamesOnce

namespace Compiler

variable {c : Compiler} {env : Env} {tokens : List Token} {w : Workspace}

theorem NamesOnce.makes (h : c.NamesOnce) {t : Token} (ht : t.BringsOnce) :
    c.Makes env NamedOnce t where
  rule := by
    intro r hr stream index n
    exact h.rules _ (RuleTable.mem_of_find? hr) ⟨stream, index, t, c.options, env⟩ n h.resolver ht
  generic := fun _ hn => t.namedOnce_generic hn

theorem NamesOnce.everyIn_compileInner (h : c.NamesOnce)
    (htokens : ∀ t ∈ Token.deepList tokens, t.BringsOnce) (hw : w.cache.IsSound) :
    Node.EveryIn NamedOnce (c.compileInner env tokens w).1 :=
  Compiler.everyIn_compileInner (fun t ht => h.makes (htokens t ht)) hw

/-- The annotation sets attributes of tokens, and brings no nodes. -/
theorem NamesOnce.everyIn_compile (h : c.NamesOnce)
    (htokens : ∀ t ∈ Token.deepList tokens, t.BringsOnce) (hw : w.cache.IsSound) :
    Node.EveryIn NamedOnce (c.compile env tokens w).1 := by
  refine h.everyIn_compileInner ?_ hw
  intro u hu n hn
  rcases mem_deepList_annotate hu with ⟨t, ht, index, rfl⟩ | ⟨t, ht, rfl⟩
  · rw [Token.node_annotate] at hn
    exact htokens t (Token.mem_deepList_of_mem ht) n hn
  · rw [Token.node_prepare] at hn
    exact htokens t ht n hn

end Compiler

/-- Tokens that are read bring no nodes. -/
theorem Token.bringsOnce_of_readStream {text : String} {tokens : List Token}
    (h : Token.readStream text = .ok tokens) : ∀ t ∈ Token.deepList tokens, t.BringsOnce := by
  intro u hu n hn
  rcases Token.mem_deepList.1 hu with ⟨t, ht, hu⟩
  rcases Option.bind_eq_some_iff.1 hn with ⟨m, hm, hnode⟩
  have hnone : m.node = none := ((Token.isReadable_of_readStream h t ht u hu).2.2 m hm).node_eq
  rw [hnone] at hnode
  cases hnode

/-- Attribute lists that are edited step by step are maps in the order of insertion.  Hence no
element has two attributes of one name in the forest of a stream that was read, be it annotated
first or not, in whatever mode and with whatever highlighter, as long as no rule is replaced and
no resolver takes over blocks. -/
theorem run_and_compile_named_once :
    (∀ history, Attributes.IsInsertionOrdered history) ∧
      ∀ (c : Compiler) (env : Env) (text : String) (tokens : List Token) (w : Workspace),
        c.rules = RuleTable.standard → c.options.resolver = none →
          Token.readStream text = .ok tokens → w.cache.IsSound →
            Node.EveryIn NamedOnce (c.compile env tokens w).1 ∧
              Node.EveryIn NamedOnce (c.compileInner env tokens w).1 := by
  refine ⟨Attributes.isInsertionOrdered, ?_⟩
  intro c env text tokens w hrules hresolver htext hw
  have hnames : c.NamesOnce := ⟨hresolver, hrules ▸ RuleTable.namesOnce_standard⟩
  have htokens := Token.bringsOnce_of_readStream htext
  exact ⟨hnames.everyIn_compile htokens hw, hnames.everyIn_compileInner htokens hw⟩

/-- Raw markup and an image that repeat names. -/
def repeatedStream : List Token :=
  [ { kind := "html_block", content := "<p a=1 A=2 a=3>y</p>" },
    { kind := "image", attrs := [("src", "u"), ("alt", "v"), ("src", "w")] } ]

def repeatedText : String :=
  "[\x7b\"type\":\"html_block\",\"content\":\"<p a=1 A=2 a=3>y</p>\"\x7d," ++
    "\x7b\"type\":\"image\",\"attrs\":[[\"src\",\"u\"],[\"alt\",\"v\"],[\"src\",\"w\"]]\x7d]"

theorem run_and_compile_named_once_repeated :
    Attributes.IsInsertionOrdered [.set "a" "1", .mergeClass "b", .remove "a", .set "a" "2"] ∧
      Token.readStream repeatedText = .ok repeatedStream ∧
        Node.EveryIn NamedOnce (({} : Compiler).compile {} repeatedStream (Workspace.fresh 1)).1 ∧
          Node.EveryIn NamedOnce
            (({} : Compiler).compileInner {} repeatedStream (Workspace.fresh 1)).1 := by
  have htext : Token.readStream repeatedText = .ok repeatedStream := by cbv
  refine ⟨run_and_compile_named_once.1 _, htext, ?_⟩
  exact run_and_compile_named_once.2 {} {} repeatedText repeatedStream (Workspace.fresh 1) rfl rfl
    htext (Workspace.isSound_fresh 1)

end RenderForest
