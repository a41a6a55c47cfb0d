import RenderForest.Proofs.Compile.TokenIndex
import RenderForest.Proofs.Forest.Splices
/-!
# HiddenWrappers — hidden tokens around others cannot be seen in a page

A hidden opening token without a rule shows an empty fragment, which takes what the token holds.
The nodes inside hang one level deeper than they would without it, or stand in one root instead of
several.  This file defines:

* `Rule.IsLocal`, that a rule does not look around its token;
* `Token.IsHiddenPair`, a hidden opening token and its end, both without a rule;
* `Compiler.IsContent`, what such a pair may stand around;

and shows in `toHtml_compileInner_hiddenPair` that a page has the same text with the pair and
without it, whatever stands before and behind.
-/

namespace RenderForest

/-! ## Rules that do not look around -/

/-- A rule makes the same of a token wherever it stands. -/
def Rule.IsLocal (r : Rule) : Prop :=
  ∀ (t : Token) (o : Options) (env : Env) (stream stream' : List Token) (i i' : Nat),
    r ⟨stream, i, t, o, env⟩ = r ⟨stream', i', t, o, env⟩

theorem Rule.isLocal_ofToken (render : Token → RuleOutput) : (Rule.ofToken render).IsLocal :=
  fun _ _ _ _ _ _ _ => rfl

theorem RuleTable.isLocal_standard : ∀ e ∈ RuleTable.standard, e.2.IsLocal := by
  have hsoft : Rule.softBreak.IsLocal := fun _ _ _ _ _ _ _ => rfl
  have hfence : Rule.fence.IsLocal := fun _ _ _ _ _ _ _ => rfl
  refine forall_mem_standard fun kind r hr => ?_
  cases hr with
  | softBreak => exact hsoft
  | fence => exact hfence
  | _ => exact Rule.isLocal_ofToken _

/-! ## Hidden pairs -/

/-- The token has no rule, and holds no inline content. -/
structure Token.IsRuleless (t : Token) : Prop where
  not_isInline : t.isInline = false
  find?_eq_none : RuleTable.standard.find? t.kind = none

/-- A hidden opening token and a closing one, both without a rule. -/
structure Token.IsHiddenPair (opener closer : Token) : Prop where
  opening : opener.nesting = .opening
  hidden : opener.hidden = true
  closing : closer.nesting = .closing
  opener_isRuleless : opener.IsRuleless
  closer_isRuleless : closer.IsRuleless

theorem Token.IsHiddenPair.generic_opener {opener closer : Token} (h : opener.IsHiddenPair closer) :
    opener.generic = some .empty := by
  simp only [generic, h.opening, h.hidden, if_true]

theorem Token.IsHiddenPair.generic_closer {opener closer : Token} (h : opener.IsHiddenPair closer) :
    closer.generic = none := by
  simp only [generic, h.closing]

namespace Compiler

open Forest Nesting

variable {c : Compiler} {env : Env} {opener closer : Token} {tokens : List Token}
  {w : Workspace}

/-- Tokens that close all they open.  Each opening token shows an element or a fragment when it is
compiled on its own. -/
structure IsContent (c : Compiler) (env : Env) (tokens : List Token) : Prop where
  isBalanced : IsBalanced (tokens.map Token.nesting)
  holds : ∀ t ∈ tokens, t.nesting = .opening →
    ∃ n, (c.shown env t [t] 0 default).1 = some (n, none) ∧ n.isContainer = true

/-! ## Tokens wherever they stand -/

/-- With the built-in rules a token shows the same wherever it stands. -/
theorem shown_local (hrules : c.rules = RuleTable.standard) (env : Env) (t : Token)
    (stream stream' : List Token) (i i' : Nat) :
    c.shown env t stream i = c.shown env t stream' i' := by
  rcases Bool.eq_false_or_eq_true t.isInline with ht | ht
  · rw [shown_inline env ht, shown_inline env ht]
  · cases hr : c.rules.find? t.kind with
    | none => rw [shown_generic env ht hr, shown_generic env ht hr]
    | some r =>
        have hmem := RuleTable.mem_of_find? (hrules ▸ hr)
        have hlocal := RuleTable.isLocal_standard _ hmem t c.options env stream stream' i i'
        rcases t with ⟨kind, tag, attrs, map, nesting, level, children, content, markup, info,
          data, block, hidden⟩
        simp only at hr hlocal
        rw [shown, shown, if_neg (by simp [ht]), if_neg (by simp [ht]), hr]
        simp only
        rw [hlocal]

theorem shownList_local (hrules : c.rules = RuleTable.standard) (env : Env) (tokens : List Token)
    (stream stream' : List Token) (i i' : Nat) :
    c.shownList env tokens stream i = c.shownList env tokens stream' i' := by
  induction tokens generalizing i i' with
  | nil => rw [shownList, shownList]
  | cons t rest ih =>
      rw [shownList, shownList, shown_local hrules env t stream stream' i i',
        ih (i + 1) (i' + 1)]

/-! ## Streams that are put together -/

theorem map_nesting_shownList (c : Compiler) (env : Env) (tokens stream : List Token) (i : Nat)
    (w : Workspace) :
    (c.shownList env tokens stream i w).1.map Shown.nesting = tokens.map Token.nesting := by
  induction tokens generalizing i w with
  | nil =>
      rw [shownList]
      rfl
  | cons t rest ih => rw [shownList_cons, List.map_cons, List.map_cons, ih]

/-- What the second part of a stream shows starts from the workspace that the first part
leaves. -/
theorem shownList_append (c : Compiler) (env : Env) (a b stream : List Token) (i : Nat)
    (w : Workspace) :
    c.shownList env (a ++ b) stream i w =
      ((c.shownList env a stream i w).1 ++
          (c.shownList env b stream (i + a.length) (c.shownList env a stream i w).2).1,
        (c.shownList env b stream (i + a.length) (c.shownList env a stream i w).2).2) := by
  have hcons : ∀ (t : Token) (rest : List Token) (i : Nat) (w : Workspace),
      c.shownList env (t :: rest) stream i w =
        (⟨(c.shown env t stream i w).1, t.nesting⟩ ::
            (c.shownList env rest stream (i + 1) (c.shown env t stream i w).2).1,
          (c.shownList env rest stream (i + 1) (c.shown env t stream i w).2).2) := by
    intro t rest i w
    rw [shownList]
    rfl
  induction a generalizing i w with
  | nil =>
      rw [shownList]
      rfl
  | cons t rest ih =>
      rw [List.cons_append, hcons, hcons, ih, List.length_cons, Nat.add_right_comm, Nat.add_assoc]
      rfl

/-- A hidden pair adds an empty fragment and its end to what the tokens inside show, and leaves
the workspace as it is. -/
theorem shownList_hiddenPair (hrules : c.rules = RuleTable.standard) (env : Env)
    (h : opener.IsHiddenPair closer) (tokens : List Token) (w : Workspace) :
    c.shownList env (opener :: tokens ++ [closer]) [] 0 w =
      (⟨some (.empty, none), .opening⟩ :: (c.shownList env tokens [] 0 w).1 ++ [⟨none, .closing⟩],
        (c.shownList env tokens [] 0 w).2) := by
  have hopener : c.shownList env [opener] [] 0 w = ([⟨some (.empty, none), .opening⟩], w) := by
    rw [shownList, shownList, shown_generic env h.opener_isRuleless.not_isInline
      (hrules ▸ h.opener_isRuleless.find?_eq_none), h.generic_opener, h.opening]
    rfl
  have hcloser : ∀ w', c.shownList env [closer] [] 0 w' = ([⟨none, .closing⟩], w') := by
    intro w'
    rw [shownList, shownList, shown_generic env h.closer_isRuleless.not_isInline
      (hrules ▸ h.closer_isRuleless.find?_eq_none), h.generic_closer, h.closing]
    rfl
  rw [← List.singleton_append, List.append_assoc, shownList_append, shownList_append, hopener,
    shownList_local hrules env tokens [] [] _ 0, shownList_local hrules env [closer] [] [] _ 0,
    hcloser]
  rfl

/-- Behind whatever was compiled before, content shows a run of its own. -/
theorem IsContent.isRun (h : c.IsContent env tokens) (hc : c.IsFunction)
    (hrules : c.rules = RuleTable.standard) (hw : w.cache.IsSound) :
    IsRun (c.shownList env tokens [] 0 w).1 := by
  refine ⟨(map_nesting_shownList c env tokens [] 0 w).symm ▸ h.isBalanced, takesAll_of_mem ?_⟩
  intro s hs hopening
  rcases List.getElem?_of_mem hs with ⟨i, hi⟩
  rcases hc.exists_shownList tokens [] 0 hw hi with ⟨t, w', ht, hw', hout⟩
  have hnesting : t.nesting = .opening := by
    have hmap := congrArg (fun l => l[i]?) (map_nesting_shownList c env tokens [] 0 w)
    simp only [List.getElem?_map, hi, ht, Option.map_some, Option.some_inj] at hmap
    rw [← hmap, hopening]
  rcases h.holds t (List.mem_of_getElem? ht) hnesting with ⟨n, hn, hcontainer⟩
  rcases hc.isStable_shown env t [t] 0 with ⟨out, hstable⟩
  refine ⟨n, ?_, hcontainer⟩
  -- A sound cache shows what a fresh one shows.
  rw [hout, shown_local hrules env t [] [t] _ 0, (hstable w' hw').1, ← hn,
    (hstable default (Workspace.isSound_fresh 1)).1]

/-! ## The page -/

/-- A page has the same text with a hidden pair and without it. -/
theorem toHtml_compileInner_hiddenPair (hrules : c.rules = RuleTable.standard)
    (hresolver : c.options.resolver = none) (hw : w.cache.IsSound)
    (hpair : opener.IsHiddenPair closer) (hcontent : c.IsContent env tokens)
    (before behind : List Token) :
    toHtml (c.compileInner env (before ++ (opener :: tokens ++ [closer]) ++ behind) w).1 =
      toHtml (c.compileInner env (before ++ tokens ++ behind) w).1 := by
  have hc : c.IsFunction := ⟨hresolver, hrules ▸ RuleTable.isFunction_standard⟩
  have hstream : ∀ run : List Token, c.stream env (before ++ run ++ behind) w =
      (c.shownList env before [] 0 w).1 ++
          (c.shownList env run [] 0 (c.shownList env before [] 0 w).2).1 ++
        (c.shownList env behind [] 0
          (c.shownList env run [] 0 (c.shownList env before [] 0 w).2).2).1 := by
    intro run
    rw [stream, shownList_local hrules env _ _ [] 0 0, shownList_append, shownList_append,
      shownList_local hrules env run [] [] _ 0, shownList_local hrules env behind [] [] _ 0]
  rcases hc.isStable_shownList env before [] 0 with ⟨shownBefore, hbefore⟩
  have hrun := hcontent.isRun hc hrules (hbefore w hw).2
  have hwrapped : build (⟨some (.empty, none), .opening⟩ ::
      (c.shownList env tokens [] 0 (c.shownList env before [] 0 w).2).1 ++ [⟨none, .closing⟩]) =
        [.fragment (build (c.shownList env tokens [] 0 (c.shownList env before [] 0 w).2).1)] :=
    build_group rfl hrun.takesAll hrun.isBalanced
  rw [compileInner_fst, compileInner_fst, hstream, hstream, shownList_hiddenPair hrules env hpair,
    toHtml, toHtml]
  refine congrArg (fun s : String => String.ofList (Html.dropLineFeeds s.toList)) ?_
  refine writeNodes_build_splice _ _ (hrun.group rfl) hrun ?_
  rw [hwrapped, Html.writeNodes, Html.writeNodes, Html.writeNode, String.append_empty]

/-- An item of a list that is open, with a leaf and a line break that pretend to hold what
follows. -/
def openItem : List Token :=
  [ { kind := "bullet_list_open", tag := "ul", nesting := .opening },
    { kind := "list_item_open", tag := "li", nesting := .opening },
    { kind := "text", content := "a", nesting := .opening },
    { kind := "softbreak", nesting := .opening } ]

def strongText : List Token :=
  [ { kind := "strong_open", tag := "strong", nesting := .opening },
    { kind := "text", content := "b" },
    { kind := "strong_close", tag := "strong", nesting := .closing } ]

theorem isContent_strongText : IsContent {} {} strongText := by
  refine ⟨isBalanced_selfClosing.wrap, ?_⟩
  intro t ht hopening
  simp only [strongText, List.mem_cons, List.not_mem_nil, or_false] at ht
  rcases ht with rfl | rfl | rfl
  · exact ⟨_, rfl, rfl⟩
  · cases hopening
  · cases hopening

theorem isHiddenPair_paragraph : Token.IsHiddenPair
    { kind := "paragraph_open", tag := "p", nesting := .opening, hidden := true }
    { kind := "paragraph_close", tag := "p", nesting := .closing, hidden := true } :=
  ⟨rfl, rfl, rfl, ⟨by decide, by decide⟩, ⟨by decide, by decide⟩⟩

theorem toHtml_compileInner_hiddenPair_openItem :
    toHtml (compileInner {} {}
        (openItem ++
          ({ kind := "paragraph_open", tag := "p", nesting := .opening, hidden := true } ::
            strongText ++
              [{ kind := "paragraph_close", tag := "p", nesting := .closing, hidden := true }]) ++
          [{ kind := "text", content := "c" }]) default).1 =
      toHtml (compileInner {} {} (openItem ++ strongText ++ [{ kind := "text", content := "c" }])
        default).1 :=
  toHtml_compileInner_hiddenPair rfl rfl (Workspace.isSound_fresh 1) isHiddenPair_paragraph
    isContent_strongText openItem [{ kind := "text", content := "c" }]

end Compiler
end RenderForest
