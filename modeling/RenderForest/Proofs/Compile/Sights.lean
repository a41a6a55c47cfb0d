import RenderForest.Proofs.Compile.SafeMode
import RenderForest.Proofs.Tree.Sights
/-!
# Sights — a compiler shows what its tokens hold

With the built-in rules a token of text or code shows its content, an image shows the text inside
as its alternative, and inline content shows what it holds; all other tokens show no text.  This
file defines:

* `Token.sights`, what a reader is to see of a token;
* `Token.IsPlain`, that a token is no raw markup and its element is none that means more;

and shows in `sights_compile` that the forest of plain tokens shows just that, in the order of the
tokens.
-/

namespace RenderForest

namespace Token

def showsContent (kind : String) : Bool :=
  kind == "text" || kind == "code_inline" || kind == "code_block" || kind == "fence"

mutual

/-- What a reader is to see of a token. -/
def sights : Token → List Sight
  | ⟨kind, _, _, _, _, _, children, content, _, _, _, _, _⟩ =>
    if kind == "inline" then innerSights children
    else if showsContent kind then Sight.ofText content
    else if kind == "image" then [.image (some (innerText children))]
    else []

def innerSights : Option (List Token) → List Sight
  | none => []
  | some ts => listSights ts

def listSights : List Token → List Sight
  | [] => []
  | t :: rest => t.sights ++ listSights rest

end

/-- No raw markup, no comment, and no image but that of an image token; an opening token shows
its generic element. -/
structure IsPlain (t : Token) : Prop where
  raw : ¬ t.IsRaw
  image : t.tag = "img" → t.kind = "image"
  comment : t.tag ≠ commentTag
  opening : t.nesting = .opening → t.isInline = false ∧ RuleTable.standard.find? t.kind = none

def isPlainShape (kind tag : String) (nesting : Nesting) : Bool :=
  kind != "html_block" && kind != "html_inline" && (tag != "img" || kind == "image") &&
    tag != commentTag &&
    (nesting != .opening || (kind != "inline" && (RuleTable.standard.find? kind).isNone))

theorem isPlain_iff {t : Token} : t.IsPlain ↔ isPlainShape t.kind t.tag t.nesting = true := by
  simp only [isPlainShape, Bool.and_eq_true, Bool.or_eq_true, bne_iff_ne, beq_iff_eq,
    Option.isNone_iff_eq_none]
  constructor
  · rintro ⟨raw, image, comment, opening⟩
    refine ⟨⟨⟨⟨fun h => raw (.inl h), fun h => raw (.inr h)⟩, ?_⟩, comment⟩, ?_⟩
    · exact Decidable.or_iff_not_imp_left.2 fun h => image (Decidable.not_not.1 h)
    · refine Decidable.or_iff_not_imp_left.2 fun h => ?_
      rcases opening (Decidable.not_not.1 h) with ⟨hinline, hnone⟩
      exact ⟨by simpa [isInline] using hinline, hnone⟩
  · rintro ⟨⟨⟨⟨hblock, hinline⟩, image⟩, comment⟩, opening⟩
    refine ⟨?_, ?_, comment, ?_⟩
    · rintro (h | h)
      · exact hblock h
      · exact hinline h
    · intro h
      exact image.resolve_left (not_not.2 h)
    · intro h
      rcases opening.resolve_left (not_not.2 h) with ⟨hkind, hnone⟩
      exact ⟨by simpa [isInline] using hkind, hnone⟩

/-- Nothing but its shape makes a token plain. -/
theorem IsPlain.of_shape {t u : Token} (h : t.IsPlain) (hshape : u.shape = t.shape) :
    u.IsPlain := by
  have hkind : u.kind = t.kind := congrArg Prod.fst hshape
  have htag : u.tag = t.tag := congrArg (fun shape => shape.2.1) hshape
  have hnesting : u.nesting = t.nesting := congrArg (fun shape => shape.2.2) hshape
  rw [isPlain_iff] at h ⊢
  rw [hkind, htag, hnesting]
  exact h

/-- A token and all tokens inside it are plain. -/
def AllPlain (t : Token) : Prop :=
  ∀ u ∈ t.deep, u.IsPlain

theorem allPlain_iff {t : Token} :
    t.AllPlain ↔ t.IsPlain ∧ ∀ u ∈ t.inner, u.AllPlain :=
  forall_mem_deep_iff

variable {t : Token}

theorem sights_of_isInline (h : t.isInline = true) : t.sights = innerSights t.children := by
  cases t
  exact if_pos h

theorem sights_of_not_isInline (h : t.isInline = false) :
    t.sights =
      if showsContent t.kind then Sight.ofText t.content
      else if t.kind == "image" then [.image (some (listText t.inner))] else [] := by
  rcases t with ⟨kind, tag, attrs, map, nesting, level, children, content, markup, info, data,
    block, hidden⟩
  rw [sights, if_neg (by simpa [isInline] using h)]
  cases children <;> rfl

/-- Kinds without a rule show no text. -/
theorem sights_of_find?_eq_none (h : t.isInline = false)
    (hr : RuleTable.standard.find? t.kind = none) : t.sights = [] := by
  have hne : ∀ kind, RuleTable.standard.find? kind ≠ none → t.kind ≠ kind := by
    rintro kind hsome rfl
    exact hsome hr
  have htext := hne "text" (by simp [RuleTable.standard_eq, RuleTable.find?])
  have hcode := hne "code_inline" (by simp [RuleTable.standard_eq, RuleTable.find?])
  have hblock := hne "code_block" (by simp [RuleTable.standard_eq, RuleTable.find?])
  have hfence := hne "fence" (by simp [RuleTable.standard_eq, RuleTable.find?])
  have himage := hne "image" (by simp [RuleTable.standard_eq, RuleTable.find?])
  rw [sights_of_not_isInline h]
  simp [showsContent, htext, hcode, hblock, hfence, himage]

/-- The generic render shows no text. -/
theorem IsPlain.sights_generic (h : t.IsPlain) (hkind : t.kind ≠ "image") :
    t.generic.toList.flatMap Node.sights = [] ∧
      (t.nesting = .opening → ∃ n, t.generic = some n ∧ n.isContainer = true) := by
  have himage : t.tag ≠ "img" := fun htag => hkind (h.image htag)
  rcases t.generic_cases with ⟨hclosing, hnode⟩ | ⟨_, hnode | ⟨hcomment, _⟩ | ⟨_, hnode⟩⟩
  · rw [hnode, hclosing]
    exact ⟨rfl, fun hopening => by cases hopening⟩
  · rw [hnode]
    exact ⟨rfl, fun _ => ⟨_, rfl, rfl⟩⟩
  · exact absurd hcomment h.comment
  · rw [hnode]
    refine ⟨?_, fun _ => ⟨_, rfl, rfl⟩⟩
    simp [Node.plain, Node.sights, Node.sightsAll, himage]

end Token

/-! ## Rules -/

/-- A rule shows one node of a token or nothing, and of it a reader sees what the token is to
show. -/
def Rule.IsSeen (r : Rule) (o : Options) (t : Token) : Prop :=
  ∃ out, r.Shows o t out ∧ out.toList.flatMap Node.sights = t.sights

namespace Rule

variable {o : Options} {t : Token}

theorem isSeen_ofToken {render : Token → RuleOutput} {n : Node} (h : render t = .node n)
    (hn : n.sights = t.sights) : (Rule.ofToken render).IsSeen o t := by
  refine ⟨some n, shows_ofToken h, ?_⟩
  rw [Option.toList_some, List.flatMap_singleton]
  exact hn

/-- The sights of a token whose kind is known. -/
theorem sights_of_kind {kind : String} (hkind : t.kind = kind) (hinline : kind ≠ "inline") :
    t.sights =
      if Token.showsContent kind then Sight.ofText t.content
      else if kind == "image" then [.image (some (Token.listText t.inner))] else [] := by
  have ht : t.isInline = false := by
    simpa [Token.isInline, hkind] using hinline
  rw [Token.sights_of_not_isInline ht, hkind]

theorem sights_code (attrs : Attributes) (s : String) :
    (Node.plain "code" attrs [.text s]).sights = Sight.ofText s := by
  simp [Node.plain, Node.sights, Node.sightsAll]

theorem sights_pre (attrs attrs' : Attributes) (s : String) :
    (Node.plain "pre" attrs [.plain "code" attrs' [.text s]]).sights = Sight.ofText s := by
  simp [Node.plain, Node.sights, Node.sightsAll]

theorem isSeen_text (hkind : t.kind = "text") : text.IsSeen o t :=
  isSeen_ofToken rfl (sights_of_kind hkind (by decide)).symm

theorem isSeen_codeSpan (hkind : t.kind = "code_inline") : codeSpan.IsSeen o t :=
  isSeen_ofToken rfl ((sights_code _ _).trans (sights_of_kind hkind (by decide)).symm)

theorem isSeen_codeBlock (hkind : t.kind = "code_block") : codeBlock.IsSeen o t :=
  isSeen_ofToken rfl ((sights_pre _ _ _).trans (sights_of_kind hkind (by decide)).symm)

theorem isSeen_hardBreak (hkind : t.kind = "hardbreak") : hardBreak.IsSeen o t :=
  isSeen_ofToken rfl (sights_of_kind hkind (by decide)).symm

theorem isSeen_softBreak (hkind : t.kind = "softbreak") : softBreak.IsSeen o t := by
  refine ⟨_, shows_softBreak, ?_⟩
  rw [sights_of_kind hkind (by decide)]
  split <;> rfl

theorem isSeen_image (hkind : t.kind = "image") : image.IsSeen o t := by
  refine isSeen_ofToken rfl ?_
  rw [sights_of_kind hkind (by decide)]
  simp [Node.plain, Node.sights, Node.sightsAll, Attributes.get?_set, Token.showsContent,
    inlineText]

/-- Audio and video show no text. -/
theorem isSeen_media (hkind : t.kind = "audio" ∨ t.kind = "video") (hplain : t.IsPlain) :
    media.IsSeen o t := by
  refine isSeen_ofToken rfl ?_
  have htag : ((if t.tag.isEmpty then t.kind else t.tag) == "img") = false := by
    split
    · rcases hkind with hkind | hkind <;> simp [hkind]
    · rw [beq_eq_false_iff_ne]
      intro heq
      have himage := hplain.image heq
      rcases hkind with hkind | hkind <;> simp [hkind] at himage
  have hnone : t.sights = [] := by
    rcases hkind with hkind | hkind
    · exact sights_of_kind hkind (by decide)
    · exact sights_of_kind hkind (by decide)
  rw [hnone, Node.sights, htag]
  rfl

theorem isSeen_fence (hkind : t.kind = "fence") (hresolver : o.resolver = none)
    (hhighlight : o.highlight = none) : fence.IsSeen o t := by
  refine ⟨_, shows_fence hresolver, ?_⟩
  rw [sights_of_kind hkind (by decide), fallbackNode, DefaultFence.render,
    DefaultFence.highlighted_eq_none hhighlight, Option.toList_some, List.flatMap_singleton]
  exact sights_pre _ _ _

end Rule

/-- The rule of a plain token shows what the token is to show. -/
theorem isSeen_of_find? {t : Token} {r : Rule} (hr : RuleTable.standard.find? t.kind = some r)
    (hplain : t.IsPlain) {o : Options} (hresolver : o.resolver = none)
    (hhighlight : o.highlight = none) : r.IsSeen o t := by
  cases RuleTable.isStandard_of_find? hr with
  | text hkind => exact Rule.isSeen_text hkind
  | hardBreak hkind => exact Rule.isSeen_hardBreak hkind
  | softBreak hkind => exact Rule.isSeen_softBreak hkind
  | image hkind => exact Rule.isSeen_image hkind
  | media hkind => exact Rule.isSeen_media hkind hplain
  | codeSpan hkind => exact Rule.isSeen_codeSpan hkind
  | codeBlock hkind => exact Rule.isSeen_codeBlock hkind
  | fence hkind => exact Rule.isSeen_fence hkind hresolver hhighlight
  | rawMarkup hkind => exact absurd hkind hplain.raw

/-! ## Streams -/

/-- What a reader sees of the nodes of a token is what the token is to show, and an opening token
shows a node that takes children. -/
structure Forest.Shown.IsSeen (s : Forest.Shown) (t : Token) : Prop where
  sights : s.nodes.flatMap Node.sights = t.sights
  opening : s.nesting = .opening → ∃ n, s.output = some (n, none) ∧ n.isContainer = true

namespace Compiler

variable {c : Compiler}

/-- Inline content apart, a plain token shows one node or nothing. -/
theorem IsBuiltIn.isSeen_of_not_isInline (h : c.IsBuiltIn) {t : Token} (hplain : t.IsPlain)
    (ht : t.isInline = false) (env : Env) (stream : List Token) (i : Nat) (w : Workspace) :
    Forest.Shown.IsSeen ⟨(c.shown env t stream i w).1, t.nesting⟩ t := by
  -- One node or nothing, which takes children if the token opens.
  have hone : ∀ out : Option Node,
      c.shown env t stream i = pure (out.map fun n => (n, none)) →
      out.toList.flatMap Node.sights = t.sights →
      (t.nesting = .opening → ∃ n, out = some n ∧ n.isContainer = true) →
        Forest.Shown.IsSeen ⟨(c.shown env t stream i w).1, t.nesting⟩ t := by
    intro out hshown hsights hopening
    rw [hshown]
    refine ⟨?_, ?_⟩
    · rw [← hsights]
      cases out <;> rfl
    · intro hnesting
      rcases hopening hnesting with ⟨n, rfl, hn⟩
      exact ⟨n, rfl, hn⟩
  cases hr : c.rules.find? t.kind with
  | none =>
      have hnone : RuleTable.standard.find? t.kind = none := h.rules ▸ hr
      have hkind : t.kind ≠ "image" := by
        intro himage
        rw [himage] at hnone
        simp [RuleTable.standard_eq, RuleTable.find?] at hnone
      rcases hplain.sights_generic hkind with ⟨hsights, hopening⟩
      refine hone t.generic (shown_generic env ht hr stream i) ?_ hopening
      rw [hsights, Token.sights_of_find?_eq_none ht hnone]
  | some r =>
      have hsome : RuleTable.standard.find? t.kind = some r := h.rules ▸ hr
      rcases isSeen_of_find? hsome hplain h.resolver h.highlight with ⟨out, hout, hsights⟩
      refine hone out (shown_of_shows env ht hr hout stream i) hsights ?_
      -- An opening token has no rule.
      intro hnesting
      have hnone := (hplain.opening hnesting).2
      rw [hsome] at hnone
      cases hnone

mutual

theorem IsBuiltIn.isSeen_shown (h : c.IsBuiltIn) (env : Env) :
    ∀ t : Token, (∀ u ∈ t.deep, u.IsPlain) → ∀ (stream : List Token) (i : Nat) (w : Workspace),
      Forest.Shown.IsSeen ⟨(c.shown env t stream i w).1, t.nesting⟩ t
  | ⟨kind, tag, attrs, map, nesting, level, children, content, markup, info, data, block,
      hidden⟩ => by
    intro hplain stream i w
    rw [Token.deep_eq] at hplain
    have hown := hplain _ (List.mem_cons_self ..)
    rcases Bool.eq_false_or_eq_true (Token.isInline ⟨kind, tag, attrs, map, nesting, level,
      children, content, markup, info, data, block, hidden⟩) with ht | ht
    · -- The fragment shows what the tokens inside show.
      have hforest := h.sights_innerForest env children
        (fun u hu => hplain u (List.mem_cons_of_mem _ hu)) w
      refine ⟨?_, fun hopening => ?_⟩
      · rw [shown_inline env ht, Token.sights_of_isInline ht]
        exact (List.append_nil _).trans hforest
      · rw [(hown.opening hopening).1] at ht
        cases ht
    · exact h.isSeen_of_not_isInline hown ht env stream i w

theorem IsBuiltIn.sights_innerForest (h : c.IsBuiltIn) (env : Env) :
    ∀ ts : Option (List Token), (∀ u ∈ Token.deepInner ts, u.IsPlain) → ∀ w : Workspace,
      Node.sightsAll (c.innerForest env ts w).1 = Token.innerSights ts
  | none => fun _ w => by
    rw [innerForest]
    rfl
  | some ts => fun hplain w => by
    rcases h.isSeen_shownList env ts hplain ts 0 w with ⟨hsights, hopening⟩
    have hbuild := Forest.flatMap_build (Forest.takesAll_of_mem hopening) Node.readsInOrder_sights
    rw [innerForest, Node.sightsAll_eq]
    exact hbuild.trans hsights

theorem IsBuiltIn.isSeen_shownList (h : c.IsBuiltIn) (env : Env) :
    ∀ ts : List Token, (∀ u ∈ Token.deepList ts, u.IsPlain) →
      ∀ (stream : List Token) (i : Nat) (w : Workspace),
        (c.shownList env ts stream i w).1.flatMap (fun s => s.nodes.flatMap Node.sights) =
            Token.listSights ts ∧
          ∀ s ∈ (c.shownList env ts stream i w).1, s.nesting = .opening →
            ∃ n, s.output = some (n, none) ∧ n.isContainer = true
  | [] => fun _ stream i w => by
    rw [shownList]
    exact ⟨rfl, fun s hs => by cases hs⟩
  | t :: rest => fun hplain stream i w => by
    have hown : ∀ u ∈ t.deep, u.IsPlain := fun u hu => hplain u (List.mem_append_left _ hu)
    have hothers : ∀ u ∈ Token.deepList rest, u.IsPlain := fun u hu =>
      hplain u (List.mem_append_right _ hu)
    have hfirst := h.isSeen_shown env t hown stream i w
    -- The tokens behind it find the workspace that it leaves.
    rcases h.isSeen_shownList env rest hothers stream (i + 1) (c.shown env t stream i w).2 with
      ⟨hsights, hopening⟩
    rw [Forest.shownList_cons, List.flatMap_cons, hfirst.sights, hsights]
    exact ⟨rfl, List.forall_mem_cons.2 ⟨hfirst.opening, hopening⟩⟩

end

end Compiler

/-! ## Annotated streams -/

namespace Token

mutual

theorem inlineText_prepare (safe : Bool) : ∀ t : Token, (t.prepare safe).inlineText = t.inlineText
  | ⟨kind, tag, attrs, map, nesting, level, children, content, markup, info, data, block,
      hidden⟩ => by
    rw [prepare, inlineText, inlineText, innerText_prepare safe children]

theorem innerText_prepare (safe : Bool) :
    ∀ ts : Option (List Token), innerText (prepareInner safe ts) = innerText ts
  | none => rfl
  | some ts => listText_prepare safe ts

theorem listText_prepare (safe : Bool) :
    ∀ ts : List Token, listText (prepareList safe ts) = listText ts
  | [] => rfl
  | t :: rest => by
    rw [prepareList, listText, listText, inlineText_prepare safe t, listText_prepare safe rest]

end

mutual

theorem sights_prepare (safe : Bool) : ∀ t : Token, (t.prepare safe).sights = t.sights
  | ⟨kind, tag, attrs, map, nesting, level, children, content, markup, info, data, block,
      hidden⟩ => by
    rw [prepare, sights, sights, innerSights_prepare safe children, innerText_prepare safe children]

theorem innerSights_prepare (safe : Bool) :
    ∀ ts : Option (List Token), innerSights (prepareInner safe ts) = innerSights ts
  | none => rfl
  | some ts => listSights_prepare safe ts

theorem listSights_prepare (safe : Bool) :
    ∀ ts : List Token, listSights (prepareList safe ts) = listSights ts
  | [] => rfl
  | t :: rest => by
    rw [prepareList, listSights, listSights, sights_prepare safe t, listSights_prepare safe rest]

end

/-- What a reader is to see of a token stands in its kind, its content and the tokens inside. -/
theorem sights_congr {t u : Token} (hkind : u.kind = t.kind) (hcontent : u.content = t.content)
    (hchildren : u.children = t.children) : u.sights = t.sights := by
  cases t
  cases u
  subst hkind hcontent hchildren
  rfl

/-- The annotation changes nothing that a reader is to see. -/
theorem sights_annotate (env : Env) (index : Nat) (t : Token) :
    (t.annotate env index).sights = t.sights := by
  rw [← sights_prepare env.safeMode t]
  have hkind : (t.annotate env index).kind = (t.prepare env.safeMode).kind := by
    cases t
    exact congrArg Prod.fst (shape_annotate env index _)
  have hcontent : (t.annotate env index).content = (t.prepare env.safeMode).content := by
    cases t
    exact content_annotate env index _
  exact sights_congr hkind hcontent (children_annotate env index t)

theorem listSights_eq (ts : List Token) : listSights ts = ts.flatMap sights := by
  induction ts with
  | nil => rfl
  | cons t rest ih => rw [listSights, List.flatMap_cons, ih]

theorem listSights_annotate (env : Env) (tokens : List Token) :
    listSights (RenderForest.annotate env tokens) = listSights tokens := by
  rw [listSights_eq, listSights_eq, flatMap_annotate (sights_annotate env)]

end Token

/-- The forest of plain tokens shows what the tokens are to show, one after another. -/
theorem sights_compile {c : Compiler} (h : c.IsBuiltIn) (env : Env) {tokens : List Token}
    (hplain : ∀ t ∈ tokens, t.AllPlain) (w : Workspace) :
    Node.sightsAll (c.compile env tokens w).1 = Token.listSights tokens := by
  rw [← Token.listSights_annotate env tokens]
  refine h.sights_innerForest env (some (annotate env tokens)) ?_ w
  intro u hu
  rcases shape_of_mem_annotate hu with ⟨v, hv, hshape⟩
  rcases Token.mem_deepList.1 hv with ⟨t, ht, hv⟩
  exact (hplain t ht v hv).of_shape hshape

end RenderForest
