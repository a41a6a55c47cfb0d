import RenderForest.Compile.Compiler
import RenderForest.Proofs.Forest.Compiled
import RenderForest.Proofs.Stream.Neutralized
import RenderForest.Proofs.Tree.Elements
import RenderForest.Proofs.Tree.Writable
/-!
# BuiltIn — what the built-in rules show

Raw markup apart, a built-in rule shows one node or nothing as long as the host takes no hand,
and looks at nothing but its token and the settings.  This file defines:

* `Rule.Shows`, that a rule shows a given node of a token wherever the token stands;
* `Rule.IsStandard`, the built-in rules for a kind of tokens;
* `Token.Grants`, the elements that a token with safe values may show;
* `Rule.IsGranted`, that a rule shows such elements only;

and shows in `isGranted_of_find?` that the built-in rules are such rules.
-/

namespace RenderForest

/-! ## Elements of a token -/

/-- Without a highlighter the content of a fenced block is escaped. -/
theorem DefaultFence.highlighted_eq_none {o : Options} (ho : o.highlight = none) (b : CodeBlock) :
    (DefaultFence.ofOptions o).highlighted b = none := by
  simp [DefaultFence.ofOptions, DefaultFence.highlighted, ho]

namespace Token

variable {t : Token}

/-- The elements that a token may show: their values are safe, and only a code span shows names
that are not valid. -/
def Grants (t : Token) (tag : String) (attrs : Attributes) : Prop :=
  attrs.IsSafe ∧
    (attrs.HasValidNames ∨
      t.kind = "code_inline" ∧ tag = "code" ∧ attrs = Attributes.ofList t.attrs)

theorem grants_of_mayBeWritten {attrs : Attributes} (h : attrs.MayBeWritten) (tag : String) :
    t.Grants tag attrs :=
  ⟨h.safe, Or.inl h.valid⟩

theorem HasSafeValues.validAttrs (h : t.HasSafeValues) : t.validAttrs.MayBeWritten :=
  Attributes.mayBeWritten_ofListWhere (fun a ha _ => h a ha) fun _ _ hk => hk

theorem checkedAttrs_mayBeWritten (t : Token) : t.checkedAttrs.MayBeWritten :=
  Attributes.mayBeWritten_ofListWhere
    (fun _ _ hk => (Bool.and_eq_true_iff.1 hk).2) fun _ _ hk => (Bool.and_eq_true_iff.1 hk).1

/-- The attributes of one of the two elements of a code block. -/
theorem HasSafeValues.blockAttrs (h : t.HasSafeValues) (keep : String × String → Bool) :
    (Attributes.ofListWhere (fun a => Safety.isValidAttributeName a.1 && keep a)
      t.attrs).MayBeWritten :=
  Attributes.mayBeWritten_ofListWhere (fun a ha _ => h a ha)
    fun _ _ hk => (Bool.and_eq_true_iff.1 hk).1

theorem HasSafeValues.every_generic (h : t.HasSafeValues) {n : Node} (hn : t.generic = some n) :
    n.Every t.Grants := by
  rcases generic_eq_some hn with rfl | rfl | rfl
  · exact Node.every_empty
  · exact Node.every_comment
  · exact ⟨grants_of_mayBeWritten h.validAttrs _, Node.everyIn_nil⟩

/-- The default render of a fenced block, its content escaped. -/
theorem HasSafeValues.every_fallbackNode (h : t.HasSafeValues) {o : Options}
    (ho : o.highlight = none) : (fallbackNode o t).Every t.Grants := by
  rw [fallbackNode, DefaultFence.render, DefaultFence.highlighted_eq_none ho]
  -- The outer element takes the bookkeeping attributes, and the inner one all others.
  have houter : (DefaultFence.outerAttrs t.attrs (CodeBlock.ofToken t)).MayBeWritten := by
    refine Attributes.MayBeWritten.foldl_set ?_ ?_ ?_
    · exact (Attributes.mayBeWritten_empty.set (by decide) (by decide) _).set (by decide)
        (by decide) _
    · intro a ha
      exact h a (List.mem_filter.1 ha).1
    · intro a ha
      exact (Bool.and_eq_true_iff.1 (List.mem_filter.1 ha).2).1
  have hinner : ((DefaultFence.ofOptions o).innerAttrs t.attrs
      (CodeBlock.ofToken t)).MayBeWritten := by
    unfold DefaultFence.innerAttrs
    simp only
    split
    · exact h.blockAttrs _
    · exact (h.blockAttrs _).mergeClass _
  exact ⟨grants_of_mayBeWritten houter _,
    ⟨grants_of_mayBeWritten hinner _, Node.everyIn_text⟩, trivial⟩

end Token

/-! ## Rules -/

/-- One node or nothing. -/
def RuleOutput.ofNode? : Option Node → RuleOutput
  | some n => .node n
  | none => .suppress

/-- A rule shows a node of a token, or nothing, wherever the token stands. -/
def Rule.Shows (r : Rule) (o : Options) (t : Token) (out : Option Node) : Prop :=
  ∀ stream index env, r ⟨stream, index, t, o, env⟩ = pure (.ofNode? out)

def Token.IsRaw (t : Token) : Prop :=
  t.kind = "html_block" ∨ t.kind = "html_inline"

theorem RuleTable.standard_eq :
    RuleTable.standard =
      [ ("audio", Rule.media), ("code_block", Rule.codeBlock), ("code_inline", Rule.codeSpan),
        ("fence", Rule.fence), ("hardbreak", Rule.hardBreak), ("html_block", Rule.rawMarkup),
        ("html_inline", Rule.rawMarkup), ("image", Rule.image), ("softbreak", Rule.softBreak),
        ("text", Rule.text), ("video", Rule.media) ] := by
  rfl

theorem RuleTable.mem_of_find? {rules : RuleTable} {kind : String} {r : Rule}
    (h : rules.find? kind = some r) : (kind, r) ∈ rules :=
  Catalog.mem_of_lookup h

/-- The built-in rules for a kind of tokens. -/
inductive Rule.IsStandard (kind : String) : Rule → Prop where
  | text : kind = "text" → IsStandard kind Rule.text
  | hardBreak : kind = "hardbreak" → IsStandard kind Rule.hardBreak
  | softBreak : kind = "softbreak" → IsStandard kind Rule.softBreak
  | image : kind = "image" → IsStandard kind Rule.image
  | media : kind = "audio" ∨ kind = "video" → IsStandard kind Rule.media
  | codeSpan : kind = "code_inline" → IsStandard kind Rule.codeSpan
  | codeBlock : kind = "code_block" → IsStandard kind Rule.codeBlock
  | fence : kind = "fence" → IsStandard kind Rule.fence
  | rawMarkup : kind = "html_block" ∨ kind = "html_inline" → IsStandard kind Rule.rawMarkup

theorem RuleTable.isStandard_of_mem {kind : String} {r : Rule}
    (h : (kind, r) ∈ RuleTable.standard) : r.IsStandard kind := by
  rw [standard_eq] at h
  simp only [List.mem_cons, Prod.mk.injEq, List.not_mem_nil, or_false] at h
  -- The kinds in the order of the table.
  rcases h with ⟨hkind, rfl⟩ | ⟨hkind, rfl⟩ | ⟨hkind, rfl⟩ | ⟨hkind, rfl⟩ | ⟨hkind, rfl⟩ |
    ⟨hkind, rfl⟩ | ⟨hkind, rfl⟩ | ⟨hkind, rfl⟩ | ⟨hkind, rfl⟩ | ⟨hkind, rfl⟩ | ⟨hkind, rfl⟩
  · exact .media (Or.inl hkind)
  · exact .codeBlock hkind
  · exact .codeSpan hkind
  · exact .fence hkind
  · exact .hardBreak hkind
  · exact .rawMarkup (Or.inl hkind)
  · exact .rawMarkup (Or.inr hkind)
  · exact .image hkind
  · exact .softBreak hkind
  · exact .text hkind
  · exact .media (Or.inr hkind)

/-- What holds of the built-in rules holds of the table. -/
theorem RuleTable.forall_mem_standard {p : Rule → Prop}
    (h : ∀ kind r, Rule.IsStandard kind r → p r) : ∀ e ∈ RuleTable.standard, p e.2 :=
  fun _ he => h _ _ (isStandard_of_mem he)

theorem RuleTable.isStandard_of_find? {kind : String} {r : Rule}
    (h : RuleTable.standard.find? kind = some r) : r.IsStandard kind :=
  isStandard_of_mem (mem_of_find? h)

/-- A rule shows one node of a token or nothing, and of a token with safe values only what that
grants. -/
def Rule.IsGranted (r : Rule) (o : Options) (t : Token) : Prop :=
  ∃ out, r.Shows o t out ∧ ∀ n, out = some n → t.HasSafeValues → n.Every t.Grants

namespace Rule

variable {o : Options} {t : Token}

/-- A rule that looks at nothing but its token shows what it makes of that. -/
theorem shows_ofToken {render : Token → RuleOutput} {n : Node} (h : render t = .node n) :
    (Rule.ofToken render).Shows o t (some n) := by
  intro stream index env
  rw [Rule.ofToken, h]
  rfl

theorem shows_softBreak : softBreak.Shows o t (if o.breaks then some breakNode else none) := by
  intro stream index env
  simp only [softBreak]
  split <;> rfl

/-- Without a resolver a fenced block is shown by default. -/
theorem shows_fence (hresolver : o.resolver = none) :
    fence.Shows o t (some (fallbackNode o t)) := by
  intro stream index env
  simp only [fence, renderFence, hresolver]
  rfl

theorem isGranted_ofToken {render : Token → RuleOutput} {n : Node} (h : render t = .node n)
    (hn : t.HasSafeValues → n.Every t.Grants) : (Rule.ofToken render).IsGranted o t := by
  refine ⟨some n, shows_ofToken h, ?_⟩
  intro m hm hsafe
  cases hm
  exact hn hsafe

theorem every_breakNode : breakNode.Every t.Grants :=
  ⟨Token.grants_of_mayBeWritten Attributes.mayBeWritten_empty _, trivial⟩

theorem isGranted_text : text.IsGranted o t :=
  isGranted_ofToken rfl fun _ => Node.every_text

theorem isGranted_hardBreak : hardBreak.IsGranted o t :=
  isGranted_ofToken rfl fun _ => every_breakNode

theorem isGranted_softBreak : softBreak.IsGranted o t := by
  refine ⟨_, shows_softBreak, ?_⟩
  intro n hn _
  split at hn
  · cases hn
    exact every_breakNode
  · cases hn

theorem isGranted_image : image.IsGranted o t := by
  refine isGranted_ofToken rfl fun _ => ?_
  have hattrs : (t.checkedAttrs.set "alt" (inlineText t.inner)).MayBeWritten :=
    t.checkedAttrs_mayBeWritten.set (by decide) (by decide) _
  exact ⟨Token.grants_of_mayBeWritten hattrs _, trivial⟩

theorem isGranted_media : media.IsGranted o t := by
  refine isGranted_ofToken rfl fun _ => ?_
  have hcontrols : (t.checkedAttrs.set "controls" "true").MayBeWritten :=
    t.checkedAttrs_mayBeWritten.set (by decide) (by decide) _
  have hattrs : ((t.checkedAttrs.set "controls" "true").set "controlsList"
      "nodownload").MayBeWritten :=
    hcontrols.set (by decide) (by decide) _
  exact ⟨Token.grants_of_mayBeWritten hattrs _, trivial⟩

/-- A code span keeps names that are not valid, and only their values are safe. -/
theorem isGranted_codeSpan (hkind : t.kind = "code_inline") : codeSpan.IsGranted o t := by
  refine isGranted_ofToken rfl fun h => ?_
  have hsafe : (Attributes.ofList t.attrs).IsSafe := fun a ha => h a (Attributes.mem_ofList ha)
  exact ⟨⟨hsafe, Or.inr ⟨hkind, rfl, rfl⟩⟩, trivial, trivial⟩

theorem isGranted_codeBlock : codeBlock.IsGranted o t := by
  refine isGranted_ofToken rfl fun h => ?_
  exact ⟨Token.grants_of_mayBeWritten (h.blockAttrs _) _,
    ⟨Token.grants_of_mayBeWritten (h.blockAttrs _) _, trivial, trivial⟩, trivial⟩

theorem isGranted_fence (hresolver : o.resolver = none) (hhighlight : o.highlight = none) :
    fence.IsGranted o t := by
  refine ⟨_, shows_fence hresolver, ?_⟩
  intro n hn h
  cases hn
  exact h.every_fallbackNode hhighlight

end Rule

/-- Raw markup apart, the rule of a token shows one node or nothing, and of a token with safe
values only what it grants. -/
theorem isGranted_of_find? {t : Token} {r : Rule}
    (hr : RuleTable.standard.find? t.kind = some r) (hraw : ¬ t.IsRaw) {o : Options}
    (hresolver : o.resolver = none) (hhighlight : o.highlight = none) : r.IsGranted o t := by
  cases RuleTable.isStandard_of_find? hr with
  | text => exact Rule.isGranted_text
  | hardBreak => exact Rule.isGranted_hardBreak
  | softBreak => exact Rule.isGranted_softBreak
  | image => exact Rule.isGranted_image
  | media => exact Rule.isGranted_media
  | codeSpan hkind => exact Rule.isGranted_codeSpan hkind
  | codeBlock => exact Rule.isGranted_codeBlock
  | fence => exact Rule.isGranted_fence hresolver hhighlight
  | rawMarkup hkind => exact absurd hkind hraw

end RenderForest
