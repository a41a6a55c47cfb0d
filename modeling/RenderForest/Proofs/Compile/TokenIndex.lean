import RenderForest.Proofs.Compile.SafeMode
import RenderForest.Proofs.Compile.SharedCache
import RenderForest.Proofs.Markdown.MadeTokens
import RenderForest.Proofs.Stream.AttributeViews
/-!
# TokenIndex — the token that an element at the top comes from

The annotation writes its index into each block, so that an element at the top tells the token
that it comes from.  Only raw markup brings an attribute of that name of its own.  This file
defines:

* `Node.HasIndexOf`, that the index of a node is one of the attributes of a token;
* `Forest.IsIndexed`, that the indices of a forest grow and tell the tokens of its elements;

and shows in `isIndexed_compile` that the forest of a document is indexed exactly if no raw block
at the top brings an index that is not its own.
-/

namespace RenderForest

open Forest

/-! ## Indices of single tokens -/

/-- The index of a node, if it has one, is the value of an attribute of the token. -/
def Node.HasIndexOf (t : Token) (n : Node) : Prop :=
  ∀ v, n.attr? SourceAttr.tokenIndex = some v → (SourceAttr.tokenIndex, v) ∈ t.attrs

theorem Node.attr?_append (name : String) (extra : List Node) (n : Node) :
    (n.append extra).attr? name = n.attr? name := by
  cases n <;> rfl

section Rules

variable {t : Token} {tag : String} {attrs : Attributes} {handlers : List EventHandler}
  {children : List Node} {o : Options}

theorem hasIndexOf_element
    (h : ∀ a ∈ attrs.entries, a.1 = SourceAttr.tokenIndex → a ∈ t.attrs) :
    (Node.element tag attrs handlers children).HasIndexOf t :=
  fun _ hv => h _ (Attributes.mem_of_get? hv) rfl

/-- An attribute of another name is no index. -/
theorem mem_of_mem_set {a : String × String} {name value : String}
    (ha : a ∈ (attrs.set name value).entries) (hname : name ≠ SourceAttr.tokenIndex)
    (hindex : a.1 = SourceAttr.tokenIndex) : a ∈ attrs.entries := by
  rcases Attributes.mem_set ha with rfl | ha
  · exact absurd hindex hname
  · exact ha

theorem hasIndexOf_of_eq_none {n : Node} (h : n.attr? SourceAttr.tokenIndex = none) :
    n.HasIndexOf t := by
  intro v hv
  rw [h] at hv
  cases hv

theorem hasIndexOf_ofListWhere (keep : String × String → Bool) :
    (Node.element tag (Attributes.ofListWhere keep t.attrs) handlers children).HasIndexOf t :=
  hasIndexOf_element fun _ ha _ => (Attributes.mem_ofListWhere ha).1

theorem hasIndexOf_generic {n : Node} (h : t.generic = some n) : n.HasIndexOf t := by
  rcases Token.generic_eq_some h with rfl | rfl | rfl
  · exact hasIndexOf_of_eq_none rfl
  · exact hasIndexOf_of_eq_none rfl
  · exact hasIndexOf_ofListWhere _

theorem hasIndexOf_fallbackNode (ho : o.highlight = none) : (fallbackNode o t).HasIndexOf t := by
  rw [fallbackNode, DefaultFence.render, DefaultFence.highlighted_eq_none ho]
  refine hasIndexOf_element ?_
  intro a ha hindex
  rcases Attributes.mem_foldl_set ha with ha | ha
  · -- The two attributes of the info string have other names.
    cases mem_of_mem_set (mem_of_mem_set ha (by decide) hindex) (by decide) hindex
  · exact (List.mem_filter.1 ha).1

/-- A rule shows a node of a token or nothing, and the index of the node is that of the token. -/
def Rule.KeepsIndex (r : Rule) (o : Options) (t : Token) : Prop :=
  ∃ out, r.Shows o t out ∧ ∀ n, out = some n → n.HasIndexOf t

theorem keepsIndex_ofToken {render : Token → RuleOutput} {n : Node} (h : render t = .node n)
    (hn : n.HasIndexOf t) : (Rule.ofToken render).KeepsIndex o t := by
  refine ⟨some n, Rule.shows_ofToken h, ?_⟩
  rintro _ ⟨⟩
  exact hn

theorem keepsIndex_image : Rule.image.KeepsIndex o t := by
  refine keepsIndex_ofToken rfl (hasIndexOf_element ?_)
  intro a ha hindex
  exact (Attributes.mem_ofListWhere (mem_of_mem_set ha (by decide) hindex)).1

theorem keepsIndex_media : Rule.media.KeepsIndex o t := by
  refine keepsIndex_ofToken rfl (hasIndexOf_element ?_)
  intro a ha hindex
  have hown := mem_of_mem_set (mem_of_mem_set ha (by decide) hindex) (by decide) hindex
  exact (Attributes.mem_ofListWhere hown).1

theorem keepsIndex_softBreak : Rule.softBreak.KeepsIndex o t := by
  refine ⟨_, Rule.shows_softBreak, ?_⟩
  intro n hn
  split at hn
  · cases hn
    exact hasIndexOf_of_eq_none rfl
  · cases hn

theorem keepsIndex_fence (hresolver : o.resolver = none) (hhighlight : o.highlight = none) :
    Rule.fence.KeepsIndex o t := by
  refine ⟨_, Rule.shows_fence hresolver, ?_⟩
  rintro _ ⟨⟩
  exact hasIndexOf_fallbackNode hhighlight

/-- Raw markup apart, every built-in rule keeps the index. -/
theorem keepsIndex_of_find? {r : Rule} (hr : RuleTable.standard.find? t.kind = some r)
    (hraw : ¬ t.IsRaw) (hresolver : o.resolver = none) (hhighlight : o.highlight = none) :
    r.KeepsIndex o t := by
  cases RuleTable.isStandard_of_find? hr with
  | text => exact keepsIndex_ofToken rfl (hasIndexOf_of_eq_none rfl)
  | hardBreak => exact keepsIndex_ofToken rfl (hasIndexOf_of_eq_none rfl)
  | softBreak => exact keepsIndex_softBreak
  | image => exact keepsIndex_image
  | media => exact keepsIndex_media
  | codeSpan =>
      exact keepsIndex_ofToken rfl (hasIndexOf_element fun a ha _ => Attributes.mem_ofList ha)
  | codeBlock => exact keepsIndex_ofToken rfl (hasIndexOf_ofListWhere _)
  | fence => exact keepsIndex_fence hresolver hhighlight
  | rawMarkup hkind => exact absurd hkind hraw

end Rules

/-! ## What tokens at the top show -/

namespace Compiler

variable {c : Compiler} {env : Env} {t : Token} {w : Workspace}

/-- Raw markup shows what the parser makes of it. -/
theorem shown_of_isRaw (hrules : c.rules = RuleTable.standard) (hraw : t.IsRaw)
    (hnode : t.details.bind TokenMeta.node = none) (hw : w.cache.IsSound) (stream : List Token)
    (i : Nat) :
    (c.shown env t stream i w).1 =
      some (Node.ofForest (Markup.parse t.content env.policy), none) := by
  have hinline : t.isInline = false := by
    rcases hraw with hkind | hkind <;> rw [Token.isInline, hkind] <;> decide
  have hrule : c.rules.find? t.kind = some Rule.rawMarkup := by
    rcases hraw with hkind | hkind <;> rw [hrules, hkind] <;> rfl
  have houtput : Rule.rawMarkup ⟨stream, i, t, c.options, env⟩ = pure (.markup t.content) := by
    simp only [Rule.rawMarkup, Rule.ofToken, hnode]
  rcases t with ⟨kind, tag, attrs, map, nesting, level, children, content, markup, info, data,
    block, hidden⟩
  simp only at hrule houtput
  rw [shown, if_neg (by simp [hinline]), hrule]
  simp only
  rw [houtput]
  exact congrArg (fun nodes => some (Node.ofForest nodes, none)) (hw.parse_fst content env.policy)

/-- What a token shows at the top: a raw one what the parser makes of it, and any other a node
with an index of the token. -/
structure ShowsTop (env : Env) (t : Token) (n : Node) : Prop where
  raw : t.IsRaw → n = Node.ofForest (Markup.parse t.content env.policy)
  index : ¬ t.IsRaw → n.HasIndexOf t

/-- A token shows one node or nothing. -/
theorem IsBuiltIn.exists_showsTop (h : c.IsBuiltIn) (env : Env)
    (hnode : t.details.bind TokenMeta.node = none) (hw : w.cache.IsSound) (stream : List Token)
    (i : Nat) :
    ∃ out : Option Node, (c.shown env t stream i w).1 = out.map (fun n => (n, none)) ∧
      ∀ n, out = some n → ShowsTop env t n := by
  by_cases hraw : t.IsRaw
  · refine ⟨some _, shown_of_isRaw h.rules hraw hnode hw stream i, ?_⟩
    rintro _ ⟨⟩
    exact ⟨fun _ => rfl, fun hnot => absurd hraw hnot⟩
  · -- Inline content, a kind without a rule, and a kind with one.
    rcases Bool.eq_false_or_eq_true t.isInline with ht | ht
    · refine ⟨some (.fragment (c.innerForest env t.children w).1), ?_, ?_⟩
      · rw [shown_inline env ht]
        rfl
      · rintro _ ⟨⟩
        exact ⟨fun h => absurd h hraw, fun _ => hasIndexOf_of_eq_none rfl⟩
    · cases hr : c.rules.find? t.kind with
      | none =>
          refine ⟨t.generic, ?_,
            fun n hn => ⟨fun h => absurd h hraw, fun _ => hasIndexOf_generic hn⟩⟩
          rw [shown_generic env ht hr]
          rfl
      | some r =>
          have hstandard : RuleTable.standard.find? t.kind = some r := h.rules ▸ hr
          rcases keepsIndex_of_find? hstandard hraw h.resolver h.highlight with ⟨out, hout, hindex⟩
          refine ⟨out, ?_, fun n hn => ⟨fun h => absurd h hraw, fun _ => hindex n hn⟩⟩
          rw [shown_of_shows env ht hr hout]
          rfl

theorem IsBuiltIn.isFunction (h : c.IsBuiltIn) : c.IsFunction :=
  ⟨h.resolver, h.rules ▸ RuleTable.isFunction_standard⟩

/-- Each token of a stream shows what it shows in some workspace with a sound cache. -/
theorem IsFunction.exists_shownList (h : c.IsFunction) (rest stream : List Token) (index : Nat)
    {w : Workspace} (hw : w.cache.IsSound) {i : Nat} {s : Shown}
    (hs : (c.shownList env rest stream index w).1[i]? = some s) :
    ∃ t w', rest[i]? = some t ∧ w'.cache.IsSound ∧
      s.output = (c.shown env t stream (index + i) w').1 := by
  induction rest generalizing index w i with
  | nil =>
      rw [shownList] at hs
      cases hs
  | cons t rest ih =>
      rw [shownList_cons] at hs
      cases i with
      | zero =>
          cases hs
          exact ⟨t, w, rfl, hw, rfl⟩
      | succ i =>
          -- The rest starts with the workspace that the first token leaves.
          rcases h.isStable_shown env t stream index with ⟨_, hstable⟩
          rcases ih (index + 1) (hstable w hw).2 hs with ⟨u, w', hu, hw', hout⟩
          refine ⟨u, w', hu, hw', ?_⟩
          rw [hout, Nat.add_right_comm, Nat.add_assoc]

/-- Each site of a stream is that of the only node of its token. -/
theorem IsBuiltIn.exists_node (h : c.IsBuiltIn) {tokens : List Token}
    (hnode : ∀ t ∈ tokens, t.details.bind TokenMeta.node = none) (hw : w.cache.IsSound) {s : Site}
    (hs : s ∈ sites (c.stream env tokens w)) :
    s.inner = false ∧ ∃ t n, tokens[s.token]? = some t ∧
      nodeAt (c.stream env tokens w) s = some n ∧ ShowsTop env t n := by
  rcases mem_sites_iff.1 hs with ⟨shown, hshown, hmem⟩
  rcases h.isFunction.exists_shownList tokens tokens 0 hw hshown with ⟨t, w', ht, hw', hout⟩
  have htop := h.exists_showsTop env (hnode t (List.mem_of_getElem? ht)) hw'
  rcases htop tokens (0 + s.token) with ⟨out, hout', hindex⟩
  rw [hout, hout'] at hmem
  cases out with
  | none => cases hmem
  | some n =>
      have hsite : s = ⟨s.token, false⟩ := List.mem_singleton.1 hmem
      have hinner : s.inner = false := by rw [hsite]
      refine ⟨hinner, t, n, ht, ?_, hindex n rfl⟩
      have hnodes : shown.output = some (n, none) := hout.trans hout'
      rw [nodeAt, hshown, Option.bind_some, hnodes, Option.bind_some, hinner]
      rfl

end Compiler

/-! ## Annotated blocks -/

namespace Token

variable {t : Token}

/-- An unmarked block has no index but the one that the annotation writes. -/
theorem IsUnmarked.eq_of_mem_annotate (h : t.IsUnmarked) (hblock : t.block = true) {env : Env}
    {i : Nat} {v : String} (hv : (SourceAttr.tokenIndex, v) ∈ (t.annotate env i).attrs) :
    v = toString i := by
  have hfound : SourceAttr.tokenIndex ∉ Attributes.names (t.foundAttrs env) := by
    rw [names_foundAttrs]
    intro hmem
    rcases List.mem_map.1 hmem with ⟨a, ha, hname⟩
    have hunmarked := h.attrs a ha
    rw [hname] at hunmarked
    exact absurd hunmarked (by decide)
  rw [attrs_annotate hblock] at hv
  rcases Attributes.mem_setEntries hv with heq | hv
  · exact (Prod.mk.inj heq).2
  · -- The attributes of the lines have other names.
    exfalso
    have hname := List.mem_map_of_mem (f := Prod.fst) hv
    change SourceAttr.tokenIndex ∈ _ at hname
    split at hname
    · exact hfound hname
    · rcases Attributes.mem_names_setEntries.1 hname with heq | hname
      · exact absurd heq (by decide)
      · rcases Attributes.mem_names_setEntries.1 hname with heq | hname
        · exact absurd heq (by decide)
        · exact hfound hname

end Token

/-! ## Indexed forests -/

namespace Forest

/-- The indices of the elements at the top of a forest grow, and the element that has an index was
produced by the block with this index. -/
structure IsIndexed (tokens : List Token) (stream : List Shown) (forest : List Node) : Prop where
  forest_eq : forest = outline stream
  increasing : ∃ indices : List Nat, indices.Pairwise (· < ·) ∧
    forest.filterMap (Node.attr? SourceAttr.tokenIndex) = indices.map toString
  produced : ∀ s ∈ rootSites stream, ∀ v,
    (subtree stream s).attr? SourceAttr.tokenIndex = some v →
      v = toString s.token ∧ ∃ t, tokens[s.token]? = some t ∧ t.block = true

theorem exists_indices {α : Type} {l : List α} {index? : α → Option String} {place : α → Nat}
    (h : ∀ a ∈ l, ∀ v, index? a = some v → v = toString (place a))
    (hl : l.Pairwise fun a b => place a < place b) :
    ∃ indices : List Nat, indices.Pairwise (· < ·) ∧ l.filterMap index? = indices.map toString := by
  refine ⟨(l.filter fun a => (index? a).isSome).map place, ?_, ?_⟩
  · rw [List.pairwise_map]
    exact hl.filter _
  · -- A member without an index is left out on both sides.
    rw [List.map_map]
    induction l with
    | nil => rfl
    | cons a l ih =>
        rcases List.forall_mem_cons.1 h with ⟨ha, hl'⟩
        have hrest := ih hl' (List.pairwise_cons.1 hl).2
        cases hindex : index? a with
        | none =>
            rw [List.filterMap_cons_none hindex, List.filter_cons_of_neg (by simp [hindex]), hrest]
        | some v =>
            rw [List.filterMap_cons_some hindex, List.filter_cons_of_pos (by simp [hindex]), hrest,
              ha v hindex]
            rfl

end Forest

section Documents

variable {c : Compiler} {w : Workspace} {env : Env} {tokens : List Token}

/-- An element at the top has the index of its raw markup, or the index of its block. -/
theorem Compiler.IsBuiltIn.exists_block (h : c.IsBuiltIn) (env : Env) (hw : w.cache.IsSound)
    (htokens : ∀ t ∈ tokens, t.block = true ∧ t.IsUnmarked) {s : Site}
    (hs : s ∈ sites (c.stream env (annotate env tokens) w)) :
    s.inner = false ∧ ∃ t, tokens[s.token]? = some t ∧ t.block = true ∧
      (t.IsRaw → (subtree (c.stream env (annotate env tokens) w) s).attr? SourceAttr.tokenIndex =
        (Node.ofForest (Markup.parse t.content env.policy)).attr? SourceAttr.tokenIndex) ∧
      (¬ t.IsRaw → ∀ v,
        (subtree (c.stream env (annotate env tokens) w) s).attr? SourceAttr.tokenIndex = some v →
          v = toString s.token) := by
  have hget : ∀ j : Nat, (annotate env tokens)[j]? = tokens[j]?.map (Token.annotate env j) :=
    fun j => List.getElem?_mapIdx
  -- The annotation brings no node of its own, so that raw markup goes to the parser.
  have hnode : ∀ u ∈ annotate env tokens, u.details.bind TokenMeta.node = none := by
    intro u hu
    rcases List.mem_iff_getElem?.1 hu with ⟨j, hj⟩
    rw [hget] at hj
    rcases Option.map_eq_some_iff.1 hj with ⟨t, ht, rfl⟩
    rw [Token.node_annotate, (htokens t (List.mem_of_getElem? ht)).2.details]
    rfl
  rcases h.exists_node hnode hw hs with ⟨hinner, u, n, hu, hn, htop⟩
  rw [hget] at hu
  rcases Option.map_eq_some_iff.1 hu with ⟨t, ht, rfl⟩
  rcases htokens t (List.mem_of_getElem? ht) with ⟨hblock, hunmarked⟩
  have hraw : (t.annotate env s.token).IsRaw ↔ t.IsRaw := by
    rw [Token.IsRaw, Token.IsRaw, Token.kind_annotate]
  refine ⟨hinner, t, ht, hblock, ?_, ?_⟩ <;>
    rw [subtree_eq, hn, Option.getD_some, Node.attr?_append]
  · intro hr
    rw [htop.raw (hraw.2 hr), Token.content_annotate]
  · intro hr v hv
    exact hunmarked.eq_of_mem_annotate hblock (htop.index (hr ∘ hraw.1) v hv)

/-- The forest of a document is indexed exactly if each raw block at its top that is parsed to one
element with an index has its own index there. -/
theorem isIndexed_compile (hc : c.IsBuiltIn) (hw : w.cache.IsSound) (d : Markdown.Dialect)
    (source : String) (env : Env) :
    let tokens := Markdown.tokenize d source
    let stream := c.stream env (annotate env tokens) w
    IsIndexed tokens stream (c.compile env tokens w).1 ↔
      ∀ s ∈ rootSites stream, ∀ t, tokens[s.token]? = some t → t.IsRaw →
        ∀ v, (Node.ofForest (Markup.parse t.content env.policy)).attr? SourceAttr.tokenIndex =
          some v → v = toString s.token := by
  intro tokens stream
  have hblock : ∀ s ∈ rootSites stream, _ := fun s hs =>
    hc.exists_block env hw (Markdown.isUnmarked_tokenize d source)
      (List.mem_filter.1 hs).1
  have hforest : (c.compile env tokens w).1 = outline stream :=
    (built_compileInner c env (annotate env tokens) w).forest_eq
  constructor
  · -- An index of raw markup is one of the indices at the top.
    intro h s hs t ht hraw v hv
    rcases hblock s hs with ⟨_, t', ht', _, hindex, _⟩
    rw [show tokens[s.token]? = some t' from ht'] at ht
    cases ht
    exact (h.produced s hs v ((hindex hraw).trans hv)).1
  · intro h
    -- Each index at the top is that of its block, and the blocks stand in order.
    have hindex : ∀ s ∈ rootSites stream, ∀ v,
        (subtree stream s).attr? SourceAttr.tokenIndex = some v → v = toString s.token := by
      intro s hs v hv
      rcases hblock s hs with ⟨_, t, ht, _, hraw, hplain⟩
      by_cases hr : t.IsRaw
      · exact h s hs t ht hr v ((hraw hr).symm.trans hv)
      · exact hplain hr v hv
    -- Sites are ranked by their tokens, since no token at the top shows two nodes.
    have hsorted : (rootSites stream).Pairwise fun a b => a.token < b.token := by
      have hranks := (pairwise_rank_sites stream).sublist
        (List.filter_sublist (p := fun s => parent? stream s == none))
      refine hranks.imp_of_mem ?_
      intro a b ha hb hab
      have hinner := (hblock a ha).1
      have hinner' := (hblock b hb).1
      rw [Site.rank, Site.rank, hinner, hinner'] at hab
      omega
    refine ⟨hforest, ?_, ?_⟩
    · rw [hforest, outline, List.filterMap_map]
      exact exists_indices hindex hsorted
    · intro s hs v hv
      rcases hblock s hs with ⟨_, t, ht, hb, _⟩
      exact ⟨hindex s hs v hv, t, ht, hb⟩

/-- A paragraph, and raw markup that brings no index. -/
theorem isIndexed_compile_rawBlock :
    let tokens := Markdown.tokenize {} "y\n\n<p>x</p>"
    ({} : Compiler).IsBuiltIn ∧ ({} : Workspace).cache.IsSound ∧
      IsIndexed tokens (({} : Compiler).stream {} (annotate {} tokens) {})
        (({} : Compiler).compile {} tokens {}).1 := by
  intro tokens
  have hbuiltIn : ({} : Compiler).IsBuiltIn := ⟨rfl, rfl, rfl⟩
  have hsound : ({} : Workspace).cache.IsSound := Workspace.isSound_fresh 1
  have hnone : ∀ t ∈ tokens, (Node.ofForest (Markup.parse t.content ({} : Env).policy)).attr?
      SourceAttr.tokenIndex = none := by
    decide +kernel
  refine ⟨hbuiltIn, hsound, (isIndexed_compile hbuiltIn hsound {} _ {}).2 ?_⟩
  intro s _ t ht _ v hv
  rw [hnone t (List.mem_of_getElem? ht)] at hv
  cases hv

/-- The raw markup behind a paragraph has the index of the paragraph. -/
theorem not_isIndexed_compile :
    ¬ ∀ (d : Markdown.Dialect) (source : String) (env : Env),
      IsIndexed (Markdown.tokenize d source)
        (({} : Compiler).stream env (annotate env (Markdown.tokenize d source)) {})
        (({} : Compiler).compile env (Markdown.tokenize d source) {}).1 := by
  intro h
  rcases (h {} "y\n\n<p data-token-idx=\"0\">x</p>" {}).increasing with
    ⟨indices, hsorted, hindices⟩
  have htwice : (({} : Compiler).compile {}
      (Markdown.tokenize {} "y\n\n<p data-token-idx=\"0\">x</p>") {}).1.filterMap
        (Node.attr? SourceAttr.tokenIndex) = ["0", "0"] := by
    decide +kernel
  rw [htwice] at hindices
  -- Two equal indices do not grow.
  have hlength := congrArg List.length hindices
  rw [List.length_map] at hlength
  rcases List.length_eq_two.1 hlength.symm with ⟨a, b, rfl⟩
  rw [List.map_cons, List.map_singleton] at hindices
  rcases List.cons.inj hindices with ⟨ha, hrest⟩
  have heq : a = b := Nat.repr_inj.1 (ha.symm.trans (List.cons.inj hrest).1)
  have hlt := (List.pairwise_cons.1 hsorted).1 b List.mem_cons_self
  omega

end Documents

end RenderForest
