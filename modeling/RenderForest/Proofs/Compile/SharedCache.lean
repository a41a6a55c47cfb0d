import RenderForest.Proofs.Compile.BuiltIn
import RenderForest.Proofs.Compile.ShownElements
/-!
# SharedCache — forests do not depend on what was compiled before

Compilers that share a workspace leave parsed markup in its cache and move its key counter on.
Neither can be seen in their forests if no resolver takes over blocks and rules depend on nothing
but their arguments.  This file defines:

* `Rule.IsFunction` and `Compiler.IsFunction`, that keys have no part in what is made of a token;
* `CompileM.IsStable`, that a computation gives the same in all workspaces with a sound cache;
* `CompileCall`, one use of a compiler;

and shows in `answers_of_history` that a cache is a bounded list of recent fragments which answers
like the parser, so that each of a sequence of calls gives the forest of a fresh workspace.
-/

namespace RenderForest

/-! ## Rules without a memory -/

/-- A rule is a function of its arguments: as long as no resolver takes over blocks, it makes the
same of a token whatever keys were handed out before. -/
def Rule.IsFunction (r : Rule) : Prop :=
  ∀ input : RuleInput, input.options.resolver = none → ∀ n m, (r input n).1 = (r input m).1

/-- No resolver takes over blocks, and all rules are functions of their arguments. -/
structure Compiler.IsFunction (c : Compiler) : Prop where
  resolver : c.options.resolver = none
  rules : ∀ e ∈ c.rules, e.2.IsFunction

theorem Rule.isFunction_ofToken (render : Token → RuleOutput) : (Rule.ofToken render).IsFunction :=
  fun _ _ _ _ => rfl

theorem Rule.isFunction_softBreak : Rule.softBreak.IsFunction :=
  fun _ _ _ _ => rfl

theorem Rule.isFunction_fence : Rule.fence.IsFunction := by
  intro input hresolver n m
  simp only [Rule.fence, renderFence, hresolver]
  rfl

theorem RuleTable.isFunction_standard : ∀ e ∈ RuleTable.standard, e.2.IsFunction := by
  refine forall_mem_standard fun kind r hr => ?_
  cases hr with
  | softBreak => exact Rule.isFunction_softBreak
  | fence => exact Rule.isFunction_fence
  | _ => exact Rule.isFunction_ofToken _

/-! ## Computations that give the same in all workspaces -/

/-- A computation gives the same in all workspaces with a sound cache, and keeps the cache sound. -/
def CompileM.IsStable {α : Type} (m : CompileM α) : Prop :=
  ∃ a, ∀ w : Workspace, w.cache.IsSound → (m w).1 = a ∧ (m w).2.cache.IsSound

namespace CompileM

variable {α β : Type}

theorem Gives.isStable {m : CompileM α} {a : α} (h : m.Gives fun b => b = a) : m.IsStable :=
  ⟨a, h⟩

theorem isStable_pure (a : α) : IsStable (pure a) :=
  Gives.isStable (gives_pure rfl)

theorem IsStable.bind {m : CompileM α} {f : α → CompileM β} (hm : m.IsStable)
    (hf : ∀ a, (f a).IsStable) : IsStable (m >>= f) := by
  rcases hm with ⟨a, ha⟩
  rcases hf a with ⟨b, hb⟩
  have hfirst : m.Gives fun x => x = a := ha
  have hsecond : (f a).Gives fun y => y = b := hb
  apply Gives.isStable
  apply hfirst.bind
  rintro _ rfl
  exact hsecond

theorem isStable_lift {k : KeyM α} (hk : ∀ n m, (k n).1 = (k m).1) : IsStable k.lift :=
  Gives.isStable (gives_lift fun n => hk n 0)

theorem isStable_parseCached (raw : String) (policy : Markup.Policy) :
    IsStable (parseCached raw policy) :=
  Gives.isStable (gives_parseCached rfl)

end CompileM

/-! ## Compilers -/

namespace Compiler

open CompileM

variable {c : Compiler}

theorem IsFunction.of_find? (h : c.IsFunction) {kind : String} {r : Rule}
    (hr : c.rules.find? kind = some r) : r.IsFunction :=
  h.rules _ (RuleTable.mem_of_find? hr)

mutual

theorem IsFunction.isStable_shown (h : c.IsFunction) (env : Env) :
    ∀ (t : Token) (stream : List Token) (i : Nat), IsStable (c.shown env t stream i)
  | ⟨kind, tag, attrs, map, nesting, level, children, content, markup, info, data, block,
      hidden⟩ => by
    intro stream i
    have hinner := h.isStable_innerForest env children
    rw [shown]
    split
    · exact hinner.bind fun forest => isStable_pure _
    · split
      · exact isStable_pure _
      · rename_i r hr
        have hrule := h.of_find? hr ⟨stream, i, ⟨kind, tag, attrs, map, nesting, level, children,
          content, markup, info, data, block, hidden⟩, c.options, env⟩ h.resolver
        refine (isStable_lift hrule).bind fun output => ?_
        cases output with
        | node n => exact isStable_pure _
        | nodes ns => exact isStable_pure _
        | markup raw => exact (isStable_parseCached raw _).bind fun nodes => isStable_pure _
        | nested n inner => exact isStable_pure _
        | inner wrap => exact hinner.bind fun forest => isStable_pure _
        | suppress => exact isStable_pure _

theorem IsFunction.isStable_innerForest (h : c.IsFunction) (env : Env) :
    ∀ ts : Option (List Token), IsStable (c.innerForest env ts)
  | none => by
    rw [innerForest]
    exact isStable_pure _
  | some ts => by
    rw [innerForest]
    exact (h.isStable_shownList env ts ts 0).bind fun stream => isStable_pure _

theorem IsFunction.isStable_shownList (h : c.IsFunction) (env : Env) :
    ∀ (ts stream : List Token) (i : Nat), IsStable (c.shownList env ts stream i)
  | [], stream, i => by
    rw [shownList]
    exact isStable_pure _
  | t :: rest, stream, i => by
    rw [shownList]
    exact (h.isStable_shown env t stream i).bind fun output =>
      (h.isStable_shownList env rest stream (i + 1)).bind fun more => isStable_pure _

end

theorem IsFunction.isStable_compile (h : c.IsFunction) (env : Env) (tokens : List Token) :
    IsStable (c.compile env tokens) :=
  h.isStable_innerForest env (some (annotate env tokens))

end Compiler

/-! ## Sequences of calls -/

/-- One use of a compiler. -/
structure CompileCall where
  compiler : Compiler
  env : Env
  tokens : List Token

def CompileCall.run (call : CompileCall) : CompileM (List Node) :=
  call.compiler.compile call.env call.tokens

def Workspace.fresh (nextKey : Nat) : Workspace :=
  { nextKey }

theorem Workspace.isSound_fresh (nextKey : Nat) : (Workspace.fresh nextKey).cache.IsSound :=
  Markup.Cache.isSound_ofCapacity _

/-- Each call gives what it gives in a fresh workspace. -/
theorem runAll_eq {calls : List CompileCall} (hcalls : ∀ call ∈ calls, call.compiler.IsFunction)
    (n : Nat) {w : Workspace} (hw : w.cache.IsSound) :
    (calls.mapM CompileCall.run w).1 = calls.map fun call => (call.run (Workspace.fresh n)).1 := by
  induction calls generalizing w with
  | nil => rfl
  | cons call calls ih =>
      rcases List.forall_mem_cons.1 hcalls with ⟨hcall, hcalls⟩
      rcases hcall.isStable_compile call.env call.tokens with ⟨forest, hforest⟩
      rcases hforest w hw with ⟨hfirst, hsound⟩
      -- The other calls find the workspace that the first one leaves.
      have hrest := ih hcalls hsound
      have hfresh := (hforest _ (Workspace.isSound_fresh n)).1
      rw [List.mapM_cons, List.map_cons, ← hrest]
      exact congrArg (· :: _) (hfirst.trans hfresh.symm)

open Markup in
/-- A cache that was asked for fragments holds the fragments that are not too long and were asked
for last, as many different ones as there is room for and there were, and nothing else; fragments
that are too long leave it as it is, and every answer is that of the parser.  Hence compilers that
share a cache, under whatever surroundings, give each stream the forest that they give it in a
fresh workspace. -/
theorem answers_of_history :
    (∀ (n : Nat) (asked : List CacheKey),
      let c := (Cache.ofCapacity n).run asked
      c.entries.map Prod.fst = (Cache.recent asked).take (max n 1) ∧
        c.size = min (max n 1) (asked.filter fun key => Cache.IsKept key).dedup.length ∧
        ∀ (raw : String) (policy : Policy),
          (c.parse raw policy).1 = parse raw policy ∧
            (Cache.longestKept < raw.utf8ByteSize → (c.parse raw policy).2 = c)) ∧
      ∀ (calls : List CompileCall) (n m : Nat),
        (∀ call ∈ calls, call.compiler.IsFunction) →
          (calls.mapM CompileCall.run (Workspace.fresh n)).1 =
            calls.map fun call => (call.run (Workspace.fresh m)).1 := by
  refine ⟨fun n asked => ?_, fun calls n m hcalls => ?_⟩
  · intro c
    have hentries : c.entries = ((Cache.recent asked).take (max n 1)).map Cache.entry :=
      Cache.entries_run n asked
    have hsound : c.IsSound := (Cache.isSound_ofCapacity n).run asked
    refine ⟨?_, ?_, fun raw policy => ⟨hsound.parse_fst raw policy, fun hlong => ?_⟩⟩
    · rw [hentries, List.map_map]
      exact List.map_id _
    · rw [Cache.size, hentries, List.length_map, List.length_take, Cache.recent,
        List.length_reverse]
    · rw [Cache.parse_of_not_isKept (Nat.not_le.2 hlong)]
  · exact runAll_eq hcalls m (Workspace.isSound_fresh n)

/-- A link to a script, compiled in safe mode between two passes without it, the last of them by a
copy of the compiler with a further rule. -/
theorem answers_of_history_link :
    let tokens : List Token :=
      [ { kind := "html_block", content := "<a href=\"javascript:alert(1)\">x</a>", block := true },
        { kind := "badge" } ]
    let copy : Compiler :=
      { rules := ("badge", Rule.ofToken fun _ => .markup "<b>new</b>") :: RuleTable.standard }
    let calls : List CompileCall :=
      [⟨{}, {}, tokens⟩, ⟨{}, .safe, tokens⟩, ⟨copy, {}, tokens⟩]
    (∀ call ∈ calls, call.compiler.IsFunction) ∧
      (calls.mapM CompileCall.run (Workspace.fresh 1)).1 =
        calls.map fun call => (call.run (Workspace.fresh 1)).1 := by
  intro tokens copy calls
  have hcopy : copy.IsFunction :=
    ⟨rfl, List.forall_mem_cons.2 ⟨Rule.isFunction_ofToken _, RuleTable.isFunction_standard⟩⟩
  have hcalls : ∀ call ∈ calls, call.compiler.IsFunction := by
    simp only [calls, List.forall_mem_cons]
    exact ⟨⟨rfl, RuleTable.isFunction_standard⟩, ⟨rfl, RuleTable.isFunction_standard⟩, hcopy,
      fun call hcall => by cases hcall⟩
  exact ⟨hcalls, answers_of_history.2 calls 1 1 hcalls⟩

end RenderForest
