import RenderForest.Compile.Compiler
import RenderForest.Proofs.Markup.Recency
import RenderForest.Proofs.Stream.Neutralized
import RenderForest.Proofs.Tree.Elements
/-!
# ShownElements — elements of a forest, told from its tokens

The elements of a forest come from what each token of the stream makes by itself: from its rule,
from the parser of raw markup, or from the generic render.  This file defines:

* `CompileM.Gives`, that a result has a property in every workspace with a sound cache;
* `RuleOutput.Every P`, that what a rule makes of a token has only elements with the property `P`;
* `Compiler.Makes`, that all elements of what a token makes by itself have it;

and shows in `everyIn_compileInner` that a forest is made of elements with the property when each
token at any depth makes such elements.
-/

namespace RenderForest

/-! ## Computations -/

/-- The result has the property, and a sound cache stays sound. -/
def CompileM.Gives {α : Type} (m : CompileM α) (Q : α → Prop) : Prop :=
  ∀ w : Workspace, w.cache.IsSound → Q (m w).1 ∧ (m w).2.cache.IsSound

namespace CompileM

variable {α β : Type} {Q : α → Prop} {R : β → Prop}

theorem gives_pure {a : α} (h : Q a) : Gives (pure a) Q :=
  fun _ hw => ⟨h, hw⟩

theorem Gives.bind {m : CompileM α} {f : α → CompileM β} (hm : m.Gives Q)
    (hf : ∀ a, Q a → (f a).Gives R) : (m >>= f).Gives R := by
  intro w hw
  rcases hm w hw with ⟨hvalue, hsound⟩
  exact hf _ hvalue _ hsound

theorem gives_lift {k : KeyM α} (h : ∀ n, Q (k n).1) : Gives k.lift Q :=
  fun w hw => ⟨h w.nextKey, hw⟩

/-- Raw markup has the nodes that the parser gives it, be it parsed or found in a cache. -/
theorem gives_parseCached {raw : String} {policy : Markup.Policy} {Q : List Node → Prop}
    (h : Q (Markup.parse raw policy)) : Gives (parseCached raw policy) Q := by
  intro w hw
  refine ⟨?_, hw.parse_snd raw policy⟩
  have hparse : (parseCached raw policy w).1 = Markup.parse raw policy := hw.parse_fst raw policy
  rw [hparse]
  exact h

end CompileM

/-! ## Elements of a token -/

/-- What a rule makes of a token has only elements with the property; raw markup is parsed under a
policy, and nodes that are wrapped are expected to have it. -/
def RuleOutput.Every (P : String → Attributes → Prop) (policy : Markup.Policy) :
    RuleOutput → Prop
  | .node n => n.Every P
  | .nodes ns => Node.EveryIn P ns
  | .markup raw => Node.EveryIn P (Markup.parse raw policy)
  | .nested n parent => n.Every P ∧ parent.Every P
  | .inner wrap => ∀ nodes, Node.EveryIn P nodes → (wrap nodes).Every P
  | .suppress => True

/-- All elements that a token makes by itself have the property, whether its kind has a rule or
not. -/
structure Compiler.Makes (c : Compiler) (env : Env) (P : String → Attributes → Prop) (t : Token) :
    Prop where
  rule : ∀ r, c.rules.find? t.kind = some r → ∀ stream index n,
    (r ⟨stream, index, t, c.options, env⟩ n).1.Every P env.policy
  generic : ∀ n, t.generic = some n → n.Every P

variable {P : String → Attributes → Prop}

theorem Forest.every_shown_some {n : Node} (h : n.Every P) (mark : Nesting) :
    Shown.Every P ⟨some (n, none), mark⟩ := by
  rintro _ _ ⟨⟩
  exact ⟨h, fun _ hinner => by cases hinner⟩

theorem Forest.every_shown_none (mark : Nesting) : Shown.Every P ⟨none, mark⟩ := by
  rintro _ _ ⟨⟩

/-! ## Elements of a forest -/

namespace Compiler

open CompileM

variable {c : Compiler} {env : Env}

mutual

theorem gives_shown :
    ∀ t : Token, (∀ u ∈ t.deep, c.Makes env P u) → ∀ (stream : List Token) (i : Nat),
      (c.shown env t stream i).Gives fun output => Forest.Shown.Every P ⟨output, t.nesting⟩
  | ⟨kind, tag, attrs, map, nesting, level, children, content, markup, info, data, block,
      hidden⟩ => by
    intro hmakes stream i
    rw [Token.deep_eq] at hmakes
    rcases List.forall_mem_cons.1 hmakes with ⟨hown, hchildren⟩
    have hinner := gives_innerForest children hchildren
    rw [shown]
    split
    · apply hinner.bind
      intro forest hforest
      exact gives_pure (Forest.every_shown_some (Node.every_fragment.2 hforest) nesting)
    · split
      · -- A kind without a rule gets the generic render.
        apply gives_pure
        rintro n inner houtput
        rcases Option.map_eq_some_iff.1 houtput with ⟨m, hm, heq⟩
        cases heq
        exact Forest.every_shown_some (hown.generic _ hm) nesting _ _ rfl
      · rename_i r hr
        apply (gives_lift (hown.rule r hr stream i)).bind
        intro output houtput
        cases output with
        | node n => exact gives_pure (Forest.every_shown_some houtput nesting)
        | nodes ns =>
            exact gives_pure (Forest.every_shown_some (Node.every_fragment.2 houtput) nesting)
        | markup raw =>
            apply (gives_parseCached houtput).bind
            intro nodes hnodes
            exact gives_pure (Forest.every_shown_some hnodes.every_ofForest nesting)
        | nested n parent =>
            apply gives_pure
            rintro _ _ ⟨⟩
            refine ⟨houtput.1, ?_⟩
            rintro _ ⟨⟩
            exact houtput.2
        | inner wrap =>
            apply hinner.bind
            intro forest hforest
            exact gives_pure (Forest.every_shown_some (houtput forest hforest) nesting)
        | suppress => exact gives_pure (Forest.every_shown_none nesting)

theorem gives_innerForest :
    ∀ ts : Option (List Token), (∀ u ∈ Token.deepInner ts, c.Makes env P u) →
      (c.innerForest env ts).Gives (Node.EveryIn P)
  | none => fun _ => by
    rw [innerForest]
    exact gives_pure Node.everyIn_nil
  | some ts => fun hmakes => by
    rw [innerForest]
    apply (gives_shownList ts hmakes ts 0).bind
    intro stream hstream
    exact gives_pure (Forest.everyIn_build hstream)

theorem gives_shownList :
    ∀ ts : List Token, (∀ u ∈ Token.deepList ts, c.Makes env P u) →
      ∀ (stream : List Token) (i : Nat),
        (c.shownList env ts stream i).Gives fun shown => ∀ s ∈ shown, s.Every P
  | [] => fun _ stream i => by
    rw [shownList]
    exact gives_pure (List.forall_mem_nil _)
  | t :: rest => fun hmakes stream i => by
    rcases List.forall_mem_append.1 hmakes with ⟨hfirst, hrest⟩
    rw [shownList]
    apply (gives_shown t hfirst stream i).bind
    intro output houtput
    apply (gives_shownList rest hrest stream (i + 1)).bind
    intro more hmore
    exact gives_pure (List.forall_mem_cons.2 ⟨houtput, hmore⟩)

end

/-- A forest is made of elements with the property when the tokens of its stream make such
elements, at any depth. -/
theorem everyIn_compileInner {tokens : List Token}
    (h : ∀ u ∈ Token.deepList tokens, c.Makes env P u) {w : Workspace} (hw : w.cache.IsSound) :
    Node.EveryIn P (c.compileInner env tokens w).1 :=
  (gives_innerForest (some tokens) h w hw).1

end Compiler
end RenderForest
