import RenderForest.Compile.Fence
import RenderForest.Proofs.Html.Outline
/-!
# Overrides — fenced blocks that the host takes over, and those where it fails

The host may fail when a block is highlighted, resolved, named, rendered or loaded.  The default
render of the block, without a resolver, is the measure of all these cases.  This file defines:

* `LeavesAlone`, the answers of a resolver that leave a block to the default render;
* `IsTakenOver`, the node of a block that was taken over;
* `ShowsSame`, that two nodes cannot be told apart in a page;
* `FenceLaw`, what is shown of the block of a token;

and shows in `renderFence_lawful` that all settings show all blocks so.
-/

namespace RenderForest

/-! ## Answers of the host -/

/-- A resolver leaves a block alone: it has nothing for it, fails, panics, or describes a component
without a name. -/
inductive LeavesAlone : Answer (Except OverrideError (Option Override)) → Prop where
  | nothing : LeavesAlone (.value (.ok none))
  | failed (e : OverrideError) : LeavesAlone (.value (.error e))
  | panicked (p : Panic) : LeavesAlone (.panic p)
  | unnamed {d : Descriptor} :
      d.isBlank = true → LeavesAlone (.value (.ok (some (.descriptor d))))

/-- The highlighter has no markup for a block: it panics, or its text is empty. -/
inductive HasNoMarkup : Answer (Option String) → Prop where
  | panicked (p : Panic) : HasNoMarkup (.panic p)
  | empty : HasNoMarkup (.value (some ""))

/-! ## Nodes of blocks that were taken over -/

def blockProps (o : Options) (t : Token) (key : String) : BlockProps :=
  { block := CodeBlock.ofToken t, key, fallback := fallbackNode o t }

/-- The node under a key of a block that was taken over: a component with what is known of the
block, or a deferred block; both have the default render of what is known of the block. -/
inductive IsTakenOver (o : Options) (t : Token) (key : String) : Override → Node → Prop where
  | component (name : String) (render : BlockProps → Answer (Except RenderError Node)) :
      IsTakenOver o t key (.component name render) (.component
        { reference := .component name (runComponent render (blockProps o t key))
          key
          block := CodeBlock.ofToken t
          fallback := (DefaultFence.ofOptions o).render t.attrs (CodeBlock.ofToken t) })
  | descriptor (d : Descriptor) :
      IsTakenOver o t key (.descriptor d) (.component
        { reference := .descriptor d
          key
          block := CodeBlock.ofToken t
          fallback := (DefaultFence.ofOptions o).render t.attrs (CodeBlock.ofToken t) })
  | deferred (loader : Loader Node) :
      IsTakenOver o t key (.deferred loader) (.deferred (Deferred.fresh key loader
        ((DefaultFence.ofOptions o).render t.attrs (CodeBlock.ofToken t)) o.deferred))

/-- Two nodes cannot be told apart in a page, whatever stands around them. -/
def ShowsSame (n m : Node) : Prop :=
  ∀ before after : List Node, toHtml (before ++ n :: after) = toHtml (before ++ m :: after)

/-- What is shown of the block of a token.  A resolver that leaves the block alone might as well
not be there, and so might a highlighter that has no markup.  Any other answer of the resolver
takes the block over, under the next key; what shows a descriptor, a component that fails or
panics, or a deferred block that is not loaded cannot be told from the default render.  Of a
deferred block nothing changes but its loader and its state. -/
structure FenceLaw (o : Options) (t : Token) : Prop where
  leftAlone : ∀ resolve, o.resolver = some resolve → LeavesAlone (resolve (CodeBlock.ofToken t)) →
    renderFence o t = renderFence { o with resolver := none } t
  takenOver : ∀ resolve, o.resolver = some resolve →
    ¬ LeavesAlone (resolve (CodeBlock.ofToken t)) → ∀ n, ∃ found node,
      resolve (CodeBlock.ofToken t) = .value (.ok (some found)) ∧
        renderFence o t n = (node, n + 1) ∧
        IsTakenOver o t (keyText (CodeBlock.ofToken t).language n) found node
  descriptor : ∀ key d node, IsTakenOver o t key (.descriptor d) node →
    ∀ n, ShowsSame node (renderFence { o with resolver := none } t n).1
  component : ∀ key name render node, IsTakenOver o t key (.component name render) node →
    (∀ m, render (blockProps o t key) ≠ .value (.ok m)) →
      ∀ n, ShowsSame node (renderFence { o with resolver := none } t n).1
  deferred : ∀ key loader d, IsTakenOver o t key (.deferred loader) (.deferred d) →
    ∀ left state, (∀ m, state ≠ .loaded m) → ∀ n,
      ShowsSame (.deferred { d with loader := left, state })
        (renderFence { o with resolver := none } t n).1
  highlight : ∀ h, o.highlight = some h →
    HasNoMarkup (h (CodeBlock.ofToken t).content (CodeBlock.ofToken t).language
      (CodeBlock.ofToken t).arguments) →
      renderFence o t = renderFence { o with highlight := none } t

variable {o : Options} {t : Token}

/-! ## Resolving -/

/-- Without a resolver a block has its default render, and takes no key. -/
theorem renderFence_of_resolver_eq_none (h : o.resolver = none) :
    renderFence o t = pure (fallbackNode o t) := by
  simp only [renderFence, h]

theorem renderFence_of_found {resolve : Resolver} (h : o.resolver = some resolve) {found : Override}
    (hfound : resolve (CodeBlock.ofToken t) = .value (.ok (some found))) (n : Nat) :
    renderFence o t n =
      (((overrideNode o (CodeBlock.ofToken t) (fallbackNode o t) found n).1.getD
        (fallbackNode o t)),
      (overrideNode o (CodeBlock.ofToken t) (fallbackNode o t) found n).2) := by
  simp only [renderFence, h, hfound]
  rfl

theorem renderFence_of_leavesAlone {resolve : Resolver} (h : o.resolver = some resolve)
    (halone : LeavesAlone (resolve (CodeBlock.ofToken t))) :
    renderFence o t = pure (fallbackNode o t) := by
  cases hanswer : resolve (CodeBlock.ofToken t) with
  | panic p => simp only [renderFence, h, hanswer]
  | value answer =>
      rw [hanswer] at halone
      cases halone with
      | nothing => simp only [renderFence, h, hanswer]
      | failed e => simp only [renderFence, h, hanswer]
      | unnamed hblank =>
          -- The descriptor is refused before it takes a key.
          funext n
          rw [renderFence_of_found h hanswer, overrideNode]
          simp only [hblank, if_true]
          rfl

theorem exists_found {answer : Answer (Except OverrideError (Option Override))}
    (h : ¬ LeavesAlone answer) : ∃ found, answer = .value (.ok (some found)) ∧
      ∀ d, found = .descriptor d → d.isBlank = false := by
  rcases answer with (e | _ | found) | p
  · exact absurd (LeavesAlone.failed e) h
  · exact absurd LeavesAlone.nothing h
  · refine ⟨found, rfl, ?_⟩
    rintro d rfl
    exact Bool.eq_false_iff.2 fun hblank => h (LeavesAlone.unnamed hblank)
  · exact absurd (LeavesAlone.panicked p) h

/-- What was found becomes a node under the next key, unless it is a descriptor without a name. -/
theorem isTakenOver_overrideNode {found : Override}
    (hnamed : ∀ d, found = .descriptor d → d.isBlank = false) (n : Nat) :
    ∃ node, overrideNode o (CodeBlock.ofToken t) (fallbackNode o t) found n = (some node, n + 1) ∧
      IsTakenOver o t (keyText (CodeBlock.ofToken t).language n) found node := by
  cases found with
  | component name render => exact ⟨_, rfl, IsTakenOver.component name render⟩
  | descriptor d =>
      refine ⟨_, ?_, IsTakenOver.descriptor d⟩
      rw [overrideNode]
      simp only [hnamed d rfl, Bool.false_eq_true, if_false]
      rfl
  | deferred loader => exact ⟨_, rfl, IsTakenOver.deferred loader⟩

/-! ## Showing -/

theorem showsSame_of_writeNode {n m : Node} (h : Html.writeNode n = Html.writeNode m) :
    ShowsSame n m := by
  intro before after
  rw [toHtml, toHtml, Html.writeNodes_append, Html.writeNodes_append, Html.writeNodes,
    Html.writeNodes, h]

theorem showsSame_component {c : Component Node} (h : c.render = fallbackNode o t) (n : Nat) :
    ShowsSame (.component c) (renderFence { o with resolver := none } t n).1 := by
  rw [renderFence_of_resolver_eq_none rfl]
  exact showsSame_of_writeNode ((Html.writeNode_component c).trans (congrArg _ h))

theorem Deferred.snapshot_of_not_loaded {ν : Type} {d : Deferred ν}
    (h : ∀ m, d.state ≠ .loaded m) : d.snapshot = d.fallback := by
  unfold snapshot
  split
  · rename_i m hm
    exact absurd hm (h m)
  · rfl

/-! ## Highlighting -/

theorem DefaultFence.highlighted_of_hasNoMarkup {f : DefaultFence} {h : Highlighter}
    (hf : f.highlight = some h) {b : CodeBlock}
    (hnone : HasNoMarkup (h b.content b.language b.arguments)) : f.highlighted b = none := by
  rw [highlighted, hf]
  simp only
  generalize h b.content b.language b.arguments = answer at hnone
  cases hnone with
  | panicked p => rfl
  | empty => rfl

/-- The default render looks at the highlighter through its markup alone. -/
theorem fallbackNode_of_hasNoMarkup {h : Highlighter} (ho : o.highlight = some h)
    (hnone : HasNoMarkup (h (CodeBlock.ofToken t).content (CodeBlock.ofToken t).language
      (CodeBlock.ofToken t).arguments)) :
    fallbackNode o t = fallbackNode { o with highlight := none } t := by
  have hsome : (DefaultFence.ofOptions o).highlighted (CodeBlock.ofToken t) = none :=
    DefaultFence.highlighted_of_hasNoMarkup ho hnone
  have hwithout : (DefaultFence.ofOptions { o with highlight := none }).highlighted
      (CodeBlock.ofToken t) = none := rfl
  rw [fallbackNode, fallbackNode, DefaultFence.render, DefaultFence.render, hsome, hwithout]
  rfl

/-- All settings show the blocks of all tokens by the law: whatever the host does, there is a node,
and where it fails that node shows the default render. -/
theorem renderFence_lawful (o : Options) (t : Token) : FenceLaw o t where
  leftAlone := by
    intro resolve hresolve halone
    rw [renderFence_of_leavesAlone hresolve halone, renderFence_of_resolver_eq_none rfl]
    rfl
  takenOver := by
    intro resolve hresolve halone n
    rcases exists_found halone with ⟨found, hfound, hnamed⟩
    rcases isTakenOver_overrideNode (o := o) (t := t) hnamed n with ⟨node, hnode, htaken⟩
    refine ⟨found, node, hfound, ?_, htaken⟩
    rw [renderFence_of_found hresolve hfound, hnode]
    rfl
  descriptor := by
    intro key d node htaken n
    cases htaken
    exact showsSame_component rfl n
  component := by
    intro key name render node htaken hfails n
    cases htaken
    refine showsSame_component ?_ n
    -- The run of the component ended without a node of its own.
    rw [Component.render, runComponent]
    cases hrun : render (blockProps o t key) with
    | panic p => rfl
    | value answer =>
        cases answer with
        | error e => rfl
        | ok m => exact absurd hrun (hfails m)
  deferred := by
    intro key loader d htaken left state hstate n
    cases htaken
    rw [renderFence_of_resolver_eq_none rfl]
    refine showsSame_of_writeNode ((Html.writeNode_deferred _).trans (congrArg _ ?_))
    exact Deferred.snapshot_of_not_loaded hstate
  highlight := by
    intro h ho hnone
    -- The highlighter is used for the default render and nowhere else.
    have hfallback := fallbackNode_of_hasNoMarkup ho hnone
    unfold renderFence
    simp only [hfallback]
    rfl

end RenderForest
