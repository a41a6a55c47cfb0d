import RenderForest.Proofs.Compile.TokenIndex
import RenderForest.Proofs.Tree.Inputs
/-!
# RawContents — the inputs of a forest come from raw markup

No built-in rule makes an input element; where the tags of the tokens name none either, all inputs
of a forest are those of its raw markup, each part of which is parsed by itself.  This file
defines:

* `Token.raws`, the raw markup of a token or of the inline content that it holds;
* `Token.IsTame`, that a token names no input, and `Token.AllTame`, that inline content does not
  either;

and shows in `inputs_compile` that the inputs of a forest are those of the raw markup of its
tokens, in the order of the tokens.
-/

namespace RenderForest

open Forest

namespace Token

/-! ## Raw markup of tokens -/

def isRawKind (kind : String) : Bool :=
  kind == "html_block" || kind == "html_inline"

theorem isRaw_iff {t : Token} : t.IsRaw ↔ isRawKind t.kind = true := by
  simp [IsRaw, isRawKind]

def ownRaws (t : Token) : List String :=
  if isRawKind t.kind then [t.content] else []

/-- The raw markup of a token, or that of the inline content that it holds. -/
def raws (t : Token) : List String :=
  if t.isInline then t.inner.flatMap ownRaws else t.ownRaws

/-! ## Tame tokens -/

/-- A token is no inline content, names no input and brings no node of its own; an opening token
shows its generic element. -/
structure IsTame (t : Token) : Prop where
  isInline : t.isInline = false
  tag : t.tag ≠ Node.inputTag
  opening : t.nesting = .opening →
    t.tag ≠ commentTag ∧ RuleTable.standard.find? t.kind = none
  node : t.details.bind TokenMeta.node = none

def isTameShape (kind tag : String) (nesting : Nesting) : Bool :=
  kind != "inline" && tag != Node.inputTag && (nesting != .opening ||
    (tag != commentTag && (RuleTable.standard.find? kind).isNone))

/-- A token is tame, or it is inline content that holds nothing but tame tokens. -/
def AllTame (t : Token) : Prop :=
  t.IsTame ∨ t.isInline = true ∧ t.nesting = .selfClosing ∧ ∀ u ∈ t.inner, u.IsTame

variable {t u : Token}

theorem isTame_iff :
    t.IsTame ↔ isTameShape t.kind t.tag t.nesting = true ∧
      t.details.bind TokenMeta.node = none := by
  simp only [isTameShape, Bool.and_eq_true, Bool.or_eq_true, bne_iff_ne, Option.isNone_iff_eq_none]
  constructor
  · rintro ⟨hinline, htag, opening, hnode⟩
    have hkind : t.kind ≠ "inline" := by simpa [Token.isInline] using hinline
    exact ⟨⟨⟨hkind, htag⟩, Decidable.or_iff_not_imp_left.2 fun h => opening (not_not.1 h)⟩, hnode⟩
  · rintro ⟨⟨⟨hkind, htag⟩, opening⟩, hnode⟩
    have hinline : t.isInline = false := by simpa [Token.isInline] using hkind
    exact ⟨hinline, htag, fun h => opening.resolve_left (not_not.2 h), hnode⟩

/-- Nothing but its shape and a node of its own makes a token tame. -/
theorem IsTame.congr (h : t.IsTame) (hshape : u.shape = t.shape)
    (hnode : u.details.bind TokenMeta.node = t.details.bind TokenMeta.node) : u.IsTame := by
  have hkind : u.kind = t.kind := congrArg Prod.fst hshape
  have htag : u.tag = t.tag := congrArg (fun shape => shape.2.1) hshape
  have hnesting : u.nesting = t.nesting := congrArg (fun shape => shape.2.2) hshape
  rw [isTame_iff] at h ⊢
  rw [hkind, htag, hnesting, hnode]
  exact h

theorem raws_of_isInline (h : t.isInline = true) : t.raws = t.inner.flatMap ownRaws :=
  if_pos h

theorem raws_of_not_isInline (h : t.isInline = false) : t.raws = t.ownRaws :=
  if_neg (by simp [h])

theorem ownRaws_of_isRaw (h : t.IsRaw) : t.ownRaws = [t.content] :=
  if_pos (isRaw_iff.1 h)

theorem ownRaws_of_not_isRaw (h : ¬ t.IsRaw) : t.ownRaws = [] :=
  if_neg (h ∘ isRaw_iff.2)

/-- The generic render of a tame token has no input, and that of an opening one takes children. -/
theorem IsTame.inputs_generic (h : t.IsTame) :
    t.generic.toList.flatMap Node.inputs = [] ∧
      (t.nesting = .opening → ∃ n, t.generic = some n ∧ n.isContainer = true) := by
  rcases t.generic_cases with ⟨hclosing, hnode⟩ | ⟨_, hnode | ⟨hcomment, hnode⟩ | ⟨_, hnode⟩⟩
  · rw [hnode, hclosing]
    exact ⟨rfl, fun hopening => by cases hopening⟩
  · rw [hnode]
    exact ⟨rfl, fun _ => ⟨_, rfl, rfl⟩⟩
  · rw [hnode]
    exact ⟨rfl, fun hopening => absurd hcomment (h.opening hopening).1⟩
  · rw [hnode]
    refine ⟨?_, fun _ => ⟨_, rfl, rfl⟩⟩
    rw [Option.toList_some, List.flatMap_singleton, Node.inputs_plain h.tag]
    rfl

end Token

/-! ## Rules -/

/-- A rule shows one node of a token or nothing, and the node has no input. -/
def Rule.IsInputless (r : Rule) (o : Options) (t : Token) : Prop :=
  ∃ out, r.Shows o t out ∧ out.toList.flatMap Node.inputs = []

namespace Rule

variable {o : Options} {t : Token}

theorem isInputless_ofToken {render : Token → RuleOutput} {n : Node} (h : render t = .node n)
    (hn : n.inputs = []) : (Rule.ofToken render).IsInputless o t := by
  refine ⟨some n, shows_ofToken h, ?_⟩
  rw [Option.toList_some, List.flatMap_singleton]
  exact hn

theorem isInputless_softBreak : softBreak.IsInputless o t := by
  refine ⟨_, shows_softBreak, ?_⟩
  split <;> rfl

/-- Audio and video have the tag of their token, or else their kind. -/
theorem isInputless_media (hkind : t.kind ≠ Node.inputTag) (htag : t.tag ≠ Node.inputTag) :
    media.IsInputless o t := by
  refine isInputless_ofToken rfl (Node.inputs_plain ?_ _ _)
  split
  · exact hkind
  · exact htag

theorem isInputless_fence (hresolver : o.resolver = none) (hhighlight : o.highlight = none) :
    fence.IsInputless o t := by
  refine ⟨_, shows_fence hresolver, ?_⟩
  rw [fallbackNode, DefaultFence.render, DefaultFence.highlighted_eq_none hhighlight]
  rfl

end Rule

/-- The rule of a tame token shows no input unless the token is raw markup. -/
theorem isInputless_of_find? {t : Token} {r : Rule}
    (hr : RuleTable.standard.find? t.kind = some r) (hraw : ¬ t.IsRaw) (htame : t.IsTame)
    {o : Options} (hresolver : o.resolver = none) (hhighlight : o.highlight = none) :
    r.IsInputless o t := by
  cases RuleTable.isStandard_of_find? hr with
  | softBreak => exact Rule.isInputless_softBreak
  | media hkind =>
      refine Rule.isInputless_media ?_ htame.tag
      rcases hkind with hkind | hkind <;> rw [hkind] <;> decide
  | fence => exact Rule.isInputless_fence hresolver hhighlight
  | rawMarkup hkind => exact absurd hkind hraw
  -- All other rules make elements and texts.
  | _ => exact Rule.isInputless_ofToken rfl rfl

/-! ## Streams -/

/-- The inputs of raw markup, each part of which is parsed by itself. -/
def Env.inputsOf (env : Env) (raws : List String) : List Attributes :=
  raws.flatMap fun raw => Node.inputsAll (Markup.parse raw env.policy)

/-- The nodes of a token have given inputs, and an opening token shows a node that takes
children. -/
structure Forest.Shown.HasInputs (s : Forest.Shown) (inputs : List Attributes) : Prop where
  inputs : s.nodes.flatMap Node.inputs = inputs
  opening : s.nesting = .opening → ∃ n, s.output = some (n, none) ∧ n.isContainer = true

namespace Compiler

variable {c : Compiler} {env : Env} {t : Token} {w : Workspace}

/-- A tame token has the inputs of its raw markup. -/
theorem IsBuiltIn.hasInputs_of_isTame (h : c.IsBuiltIn) (htame : t.IsTame)
    (hw : w.cache.IsSound) (stream : List Token) (i : Nat) :
    Forest.Shown.HasInputs ⟨(c.shown env t stream i w).1, t.nesting⟩
      (env.inputsOf t.ownRaws) := by
  by_cases hraw : t.IsRaw
  · rw [shown_of_isRaw h.rules hraw htame.node hw stream i, Token.ownRaws_of_isRaw hraw]
    refine ⟨?_, fun hopening => ?_⟩
    · rw [Env.inputsOf, List.flatMap_singleton, ← Node.inputs_ofForest]
      exact List.append_nil _
    · -- An opening token has no rule.
      have hnone := (htame.opening hopening).2
      rcases hraw with hkind | hkind <;> rw [hkind] at hnone <;> cases hnone
  · rw [Token.ownRaws_of_not_isRaw hraw]
    -- One node or nothing, which takes children if the token opens.
    have hone : ∀ out : Option Node,
        c.shown env t stream i = pure (out.map fun n => (n, none)) →
        out.toList.flatMap Node.inputs = [] →
        (t.nesting = .opening → ∃ n, out = some n ∧ n.isContainer = true) →
          Forest.Shown.HasInputs ⟨(c.shown env t stream i w).1, t.nesting⟩ [] := by
      intro out hshown hinputs hopening
      rw [hshown]
      refine ⟨?_, ?_⟩
      · rw [← hinputs]
        cases out <;> rfl
      · intro hnesting
        rcases hopening hnesting with ⟨n, rfl, hn⟩
        exact ⟨n, rfl, hn⟩
    cases hr : c.rules.find? t.kind with
    | none =>
        rcases htame.inputs_generic with ⟨hinputs, hopening⟩
        exact hone t.generic (shown_generic env htame.isInline hr stream i) hinputs hopening
    | some r =>
        have hsome : RuleTable.standard.find? t.kind = some r := h.rules ▸ hr
        rcases isInputless_of_find? hsome hraw htame h.resolver h.highlight with
          ⟨out, hout, hinputs⟩
        have hshown := shown_of_shows env htame.isInline hr hout stream i
        refine hone out hshown hinputs fun hnesting => ?_
        have hnone := (htame.opening hnesting).2
        rw [hsome] at hnone
        cases hnone

/-- The tokens of a stream have the inputs of the forest one after another, if each has its own in
every workspace with a sound cache. -/
theorem IsBuiltIn.inputs_innerForest (h : c.IsBuiltIn) {ts : List Token}
    {inputs : Token → List Attributes}
    (hts : ∀ t ∈ ts, ∀ (w : Workspace), w.cache.IsSound → ∀ (stream : List Token) (i : Nat),
      Forest.Shown.HasInputs ⟨(c.shown env t stream i w).1, t.nesting⟩ (inputs t))
    (hw : w.cache.IsSound) :
    Node.inputsAll (c.innerForest env (some ts) w).1 = ts.flatMap inputs := by
  have hlist : ∀ (stream : List Token) (i : Nat),
      (c.shownList env ts stream i w).1.flatMap (fun s => s.nodes.flatMap Node.inputs) =
          ts.flatMap inputs ∧
        ∀ s ∈ (c.shownList env ts stream i w).1, s.nesting = .opening →
          ∃ n, s.output = some (n, none) ∧ n.isContainer = true := by
    intro stream i
    induction ts generalizing w i with
    | nil =>
        rw [shownList]
        exact ⟨rfl, fun s hs => by cases hs⟩
    | cons t rest ih =>
        rcases List.forall_mem_cons.1 hts with ⟨ht, hrest⟩
        have hfirst := ht w hw stream i
        -- The tokens behind it find the workspace that it leaves.
        rcases h.isFunction.isStable_shown env t stream i with ⟨_, hstable⟩
        rcases ih hrest (hstable w hw).2 (i + 1) with ⟨hinputs, hopening⟩
        rw [Forest.shownList_cons, List.flatMap_cons, List.flatMap_cons, hfirst.inputs, hinputs]
        exact ⟨rfl, List.forall_mem_cons.2 ⟨hfirst.opening, hopening⟩⟩
  rcases hlist ts 0 with ⟨hinputs, hopening⟩
  have hbuild := Forest.flatMap_build (Forest.takesAll_of_mem hopening) Node.readsInOrder_inputs
  rw [innerForest, Node.inputsAll_eq]
  exact hbuild.trans hinputs

theorem inputsOf_flatMap (raws : Token → List String) (ts : List Token) :
    (ts.flatMap fun t => env.inputsOf (raws t)) = env.inputsOf (ts.flatMap raws) :=
  List.flatMap_assoc.symm

/-- Inline content has the inputs of the raw markup that it holds. -/
theorem IsBuiltIn.hasInputs_shown (h : c.IsBuiltIn) (ht : t.AllTame) (hw : w.cache.IsSound)
    (stream : List Token) (i : Nat) :
    Forest.Shown.HasInputs ⟨(c.shown env t stream i w).1, t.nesting⟩ (env.inputsOf t.raws) := by
  rcases ht with htame | ⟨hinline, hnesting, hinner⟩
  · rw [Token.raws_of_not_isInline htame.isInline]
    exact h.hasInputs_of_isTame htame hw stream i
  · rw [Token.raws_of_isInline hinline, shown_inline env hinline, hnesting]
    refine ⟨?_, fun hopening => by cases hopening⟩
    rw [← inputsOf_flatMap]
    refine (List.append_nil _).trans ?_
    change Node.inputsAll (c.innerForest env t.children w).1 = _
    cases hchildren : t.children with
    | none =>
        rw [Token.inner, hchildren, innerForest]
        rfl
    | some ts =>
        rw [Token.inner, hchildren, Option.getD_some] at hinner ⊢
        refine h.inputs_innerForest ?_ hw
        intro u hu w' hw' stream i
        exact h.hasInputs_of_isTame (hinner u hu) hw' stream i

end Compiler

/-! ## Annotated streams -/

namespace Token

variable {t : Token}

theorem inner_annotate (env : Env) (index : Nat) (t : Token) :
    (t.annotate env index).inner = t.inner.map (prepare env.safeMode) := by
  have hlist : ∀ ts : List Token, prepareList env.safeMode ts = ts.map (prepare env.safeMode) := by
    intro ts
    induction ts with
    | nil => rfl
    | cons t rest ih => rw [prepareList, List.map_cons, ih]
  rw [inner, children_annotate, children_prepare, inner]
  cases t.children with
  | none => rfl
  | some ts => exact hlist ts

theorem ownRaws_prepare (safe : Bool) (t : Token) : (t.prepare safe).ownRaws = t.ownRaws := by
  cases t
  rfl

theorem IsTame.prepare (h : t.IsTame) (safe : Bool) : (t.prepare safe).IsTame :=
  h.congr (shape_prepare safe t) (node_prepare safe t)

theorem isInline_annotate (env : Env) (index : Nat) (t : Token) :
    (t.annotate env index).isInline = t.isInline := by
  rw [isInline, isInline, kind_annotate]

/-- The annotation changes no raw markup. -/
theorem raws_annotate (env : Env) (index : Nat) (t : Token) :
    (t.annotate env index).raws = t.raws := by
  have hown : (t.annotate env index).ownRaws = t.ownRaws := by
    rw [ownRaws, ownRaws, kind_annotate, content_annotate]
  have hprepare : (fun u : Token => (u.prepare env.safeMode).ownRaws) = ownRaws :=
    funext fun u => ownRaws_prepare env.safeMode u
  rw [raws, raws, isInline_annotate, hown, inner_annotate, List.flatMap_map, hprepare]

theorem AllTame.annotate (h : t.AllTame) (env : Env) (index : Nat) :
    (t.annotate env index).AllTame := by
  rcases h with htame | ⟨hinline, hnesting, hinner⟩
  · exact Or.inl (htame.congr (shape_annotate env index t) (node_annotate env index t))
  · refine Or.inr ⟨?_, ?_, ?_⟩
    · rw [isInline_annotate]
      exact hinline
    · exact (congrArg (fun shape => shape.2.2) (shape_annotate env index t)).trans hnesting
    · rw [inner_annotate]
      intro u hu
      rcases List.mem_map.1 hu with ⟨v, hv, rfl⟩
      exact (hinner v hv).prepare env.safeMode

end Token

/-- The inputs of the forest of tame tokens are those of their raw markup, one token after
another. -/
theorem inputs_compile {c : Compiler} (h : c.IsBuiltIn) (env : Env) {tokens : List Token}
    (htokens : ∀ t ∈ tokens, t.AllTame) {w : Workspace} (hw : w.cache.IsSound) :
    Node.inputsAll (c.compile env tokens w).1 = env.inputsOf (tokens.flatMap Token.raws) := by
  have hraws : (annotate env tokens).flatMap Token.raws = tokens.flatMap Token.raws :=
    flatMap_annotate (Token.raws_annotate env) tokens
  rw [← hraws, ← Compiler.inputsOf_flatMap]
  refine h.inputs_innerForest ?_ hw
  intro u hu w' hw' stream i
  rcases List.mem_mapIdx.1 hu with ⟨j, hj, rfl⟩
  exact h.hasInputs_shown ((htokens _ (List.getElem_mem hj)).annotate env j) hw' stream i

end RenderForest
