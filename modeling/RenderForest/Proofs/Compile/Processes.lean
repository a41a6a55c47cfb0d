import RenderForest.Proofs.Compile.BlockKeys
import RenderForest.Proofs.Compile.SharedCache
/-!
# Processes — no two rich blocks of a process are equal

A process renders fences and compiles streams, with many compilers and in any order.  All keys come
from one counter, but compilers may share a cache or have their own.  This file defines:

* `CompileM.KeepsKeys`, that the keys of a result were given or drawn, and none of them twice;
* `Process`, what the calls of a process find and leave;
* `Call`, one thing that a process does;

and shows in `areToldApart_of_calls` that no two rich blocks of a process are equal.
-/

namespace RenderForest

/-! ## Computations that draw keys -/

/-- Each key of the result of a computation is one that it was given or one that it drew, and it
takes none of them twice. -/
def CompileM.KeepsKeys {α : Type} (m : CompileM α) (given : List String)
    (keysOf : α → List String) : Prop :=
  ∀ w : Workspace, w.cache.IsSound → (m w).2.cache.IsSound ∧
    ∃ drawn, Draws w.nextKey (m w).2.nextKey drawn ∧ (keysOf (m w).1).Subperm (given ++ drawn)

namespace CompileM

variable {α β : Type} {m : CompileM α} {given : List String} {keysOf : α → List String}

theorem keepsKeys_pure {a : α} (h : (keysOf a).Subperm given) :
    KeepsKeys (pure a) given keysOf := by
  intro w hw
  refine ⟨hw, [], .nil (Nat.le_refl _), ?_⟩
  rw [List.append_nil]
  exact h

/-- The keys of the first result are given to the second computation. -/
theorem KeepsKeys.bind {f : α → CompileM β} {keysOf' : β → List String}
    (hm : m.KeepsKeys given keysOf)
    (hf : ∀ w, (f (m w).1).KeepsKeys (keysOf (m w).1) keysOf') :
    (m >>= f).KeepsKeys given keysOf' := by
  intro w hw
  rcases hm w hw with ⟨hsound, drawn, hdrawn, hkeys⟩
  rcases hf w (m w).2 hsound with ⟨hsound', drawn', hdrawn', hkeys'⟩
  have hbind : (m >>= f) w = f (m w).1 (m w).2 := rfl
  rw [hbind]
  refine ⟨hsound', drawn ++ drawn', hdrawn.append hdrawn', ?_⟩
  rw [← List.append_assoc]
  exact hkeys'.trans ((List.subperm_append_right drawn').2 hkeys)

/-- A computation may leave keys that it was given. -/
theorem KeepsKeys.weaken (hm : m.KeepsKeys given keysOf) {given' : List String}
    (h : given.Subperm given') : m.KeepsKeys given' keysOf := by
  intro w hw
  rcases hm w hw with ⟨hsound, drawn, hdrawn, hkeys⟩
  exact ⟨hsound, drawn, hdrawn, hkeys.trans ((List.subperm_append_right drawn).2 h)⟩

/-- Keys that stand apart stay so. -/
theorem KeepsKeys.frame (hm : m.KeepsKeys given keysOf) (others : List String) :
    m.KeepsKeys (others ++ given) fun a => others ++ keysOf a := by
  intro w hw
  rcases hm w hw with ⟨hsound, drawn, hdrawn, hkeys⟩
  refine ⟨hsound, drawn, hdrawn, ?_⟩
  rw [List.append_assoc]
  exact (List.subperm_append_left others).2 hkeys

theorem keepsKeys_lift {k : KeyM α}
    (h : ∀ n, ∃ drawn, Draws n (k n).2 drawn ∧ (keysOf (k n).1).Subperm (given ++ drawn)) :
    KeepsKeys k.lift given keysOf :=
  fun w hw => ⟨hw, h w.nextKey⟩

/-- Raw markup has no blocks, be it parsed or found in a cache. -/
theorem keepsKeys_parseCached (raw : String) (policy : Markup.Policy) :
    KeepsKeys (parseCached raw policy) given Node.keysAll := by
  intro w hw
  refine ⟨hw.parse_snd raw policy, [], .nil (Nat.le_refl _), ?_⟩
  change (Node.keysAll (w.cache.parse raw policy).1).Subperm _
  rw [hw.parse_fst raw policy, Markup.keysAll_parse]
  exact List.nil_subperm

end CompileM

/-! ## Compilers -/

def Compiler.DrawsKeys (c : Compiler) : Prop :=
  ∀ e ∈ c.rules, e.2.DrawsKeys

namespace Compiler

open CompileM

variable {c : Compiler}

theorem DrawsKeys.of_find? (h : c.DrawsKeys) {kind : String} {r : Rule}
    (hr : c.rules.find? kind = some r) : r.DrawsKeys :=
  h _ (RuleTable.mem_of_find? hr)

def outputKeys (output : Option (Node × Option Node)) : List String :=
  Node.keysAll (Forest.Shown.nodes ⟨output, .selfClosing⟩)

def streamKeys (stream : List Forest.Shown) : List String :=
  stream.flatMap fun s => Node.keysAll s.nodes

theorem outputKeys_some (n : Node) : outputKeys (some (n, none)) = n.keys :=
  List.append_nil _

theorem outputKeys_nested (n parent : Node) :
    outputKeys (some (n, some parent)) = n.keys ++ parent.keys :=
  congrArg (n.keys ++ ·) (List.append_nil _)

/-- The generic render makes no blocks. -/
theorem outputKeys_generic (t : Token) :
    outputKeys (t.generic.map fun n => (n, none)) = [] := by
  cases h : t.generic with
  | none => rfl
  | some n =>
      rcases Token.generic_eq_some h with rfl | rfl | rfl
      · rfl
      · rfl
      · rfl

mutual

theorem DrawsKeys.shown (h : c.DrawsKeys) (env : Env) :
    ∀ (t : Token) (stream : List Token) (i : Nat),
      KeepsKeys (c.shown env t stream i) t.broughtDeep outputKeys
  | ⟨kind, tag, attrs, map, nesting, level, children, content, markup, info, data, block,
      hidden⟩ => by
    intro stream i
    have hinner := h.innerForest env children
    rw [Token.broughtDeep_eq, Compiler.shown]
    split
    · apply (hinner.weaken (List.sublist_append_left _ _).subperm).bind
      intro w
      apply keepsKeys_pure
      rw [outputKeys_some, Node.keys_fragment]
    · split
      · apply keepsKeys_pure
        rw [outputKeys_generic]
        exact List.nil_subperm
      · rename_i r hr
        let input : RuleInput := ⟨stream, i, ⟨kind, tag, attrs, map, nesting, level, children,
          content, markup, info, data, block, hidden⟩, c.options, env⟩
        have hrule := h.of_find? hr input
        -- The keys of the tokens inside stand apart while the rule draws its own.
        have hlift : KeepsKeys (KeyM.lift (r input)) input.token.brought RuleOutput.keys :=
          keepsKeys_lift fun n => (hrule n).2
        apply (hlift.frame (Token.broughtInside children)).bind
        intro w
        have honce : (KeyM.lift (r input) w).1.WrapsOnce := (hrule w.nextKey).1
        generalize (KeyM.lift (r input) w).1 = output at honce ⊢
        have hown : output.keys.Subperm (Token.broughtInside children ++ output.keys) :=
          (List.sublist_append_right _ _).subperm
        cases output with
        | node n =>
            apply keepsKeys_pure
            rw [outputKeys_some]
            exact hown
        | nodes ns =>
            apply keepsKeys_pure
            rw [outputKeys_some, Node.keys_fragment]
            exact hown
        | markup raw =>
            apply (keepsKeys_parseCached raw env.policy).bind
            intro w'
            apply keepsKeys_pure
            rw [outputKeys_some, Node.keys_ofForest]
        | nested n parent =>
            apply keepsKeys_pure
            rw [outputKeys_nested]
            exact hown
        | inner wrap =>
            -- The keys of the rule stand apart while the tokens inside are compiled.
            apply ((hinner.frame (wrap []).keys).weaken List.perm_append_comm.subperm).bind
            intro w'
            apply keepsKeys_pure
            rw [outputKeys_some]
            exact honce _
        | suppress => exact keepsKeys_pure List.nil_subperm

theorem DrawsKeys.innerForest (h : c.DrawsKeys) (env : Env) :
    ∀ ts : Option (List Token),
      KeepsKeys (c.innerForest env ts) (Token.broughtInside ts) Node.keysAll
  | none => by
    rw [Compiler.innerForest]
    exact keepsKeys_pure List.nil_subperm
  | some ts => by
    rw [Compiler.innerForest]
    apply (h.shownList env ts ts 0).bind
    intro w
    apply keepsKeys_pure
    -- A forest holds the nodes of its stream, each of them once.
    exact (Forest.flatMap_build_perm Node.readsInOrder_keys _).subperm

theorem DrawsKeys.shownList (h : c.DrawsKeys) (env : Env) :
    ∀ (ts stream : List Token) (i : Nat),
      KeepsKeys (c.shownList env ts stream i) (Token.broughtAll ts) streamKeys
  | [], stream, i => by
    rw [Compiler.shownList]
    exact keepsKeys_pure List.nil_subperm
  | t :: rest, stream, i => by
    rw [Compiler.shownList]
    -- First the keys of the other tokens stand apart, and then those of the first.
    have hfirst := ((h.shown env t stream i).frame (Token.broughtAll rest)).weaken
      List.perm_append_comm.subperm
    apply hfirst.bind
    intro w
    have hrest := (h.shownList env rest stream (i + 1)).frame
      (outputKeys (c.shown env t stream i w).1)
    apply (hrest.weaken List.perm_append_comm.subperm).bind
    intro w'
    exact keepsKeys_pure (List.Subperm.refl _)

end

end Compiler

/-! ## Annotated streams -/

namespace Token

mutual

theorem broughtDeep_prepare (safe : Bool) :
    ∀ t : Token, (t.prepare safe).broughtDeep = t.broughtDeep
  | ⟨kind, tag, attrs, map, nesting, level, children, content, markup, info, data, block,
      hidden⟩ => by
    rw [prepare, broughtDeep, broughtDeep, broughtInside_prepare safe children]
    -- A token without extra data is given some, but no node.
    cases data <;> rfl

theorem broughtInside_prepare (safe : Bool) :
    ∀ ts : Option (List Token), broughtInside (prepareInner safe ts) = broughtInside ts
  | none => rfl
  | some ts => broughtAll_prepareList safe ts

theorem broughtAll_prepareList (safe : Bool) :
    ∀ ts : List Token, broughtAll (prepareList safe ts) = broughtAll ts
  | [] => rfl
  | t :: rest => by
    rw [prepareList, broughtAll, broughtAll, broughtDeep_prepare safe t,
      broughtAll_prepareList safe rest]

end

theorem broughtDeep_annotate (env : Env) (index : Nat) (t : Token) :
    (t.annotate env index).broughtDeep = t.broughtDeep := by
  have hinside : broughtInside (t.annotate env index).children = broughtInside t.children := by
    rw [children_annotate, children_prepare, broughtInside_prepare]
  have hown : (t.annotate env index).brought = t.brought := by
    rw [brought, brought, node_annotate]
  rw [broughtDeep_eq, broughtDeep_eq, hinside, hown]

theorem broughtAll_eq (ts : List Token) : broughtAll ts = ts.flatMap broughtDeep := by
  induction ts with
  | nil => rfl
  | cons t rest ih => rw [broughtAll, List.flatMap_cons, ih]

end Token

/-- The annotation brings no nodes. -/
theorem broughtAll_annotate (env : Env) (tokens : List Token) :
    Token.broughtAll (annotate env tokens) = Token.broughtAll tokens := by
  rw [Token.broughtAll_eq, Token.broughtAll_eq, flatMap_annotate (Token.broughtDeep_annotate env)]

/-! ## Processes -/

/-- What the calls of a process find: the number of the next key, and the caches of the compilers,
each under a number of its own. -/
structure Process where
  nextKey : Nat
  caches : Nat → Markup.Cache

namespace Process

def begin (nextKey : Nat) (capacity : Nat → Nat) : Process where
  nextKey
  caches cache := Markup.Cache.ofCapacity (capacity cache)

def IsSound (p : Process) : Prop :=
  ∀ cache, (p.caches cache).IsSound

theorem isSound_begin (nextKey : Nat) (capacity : Nat → Nat) : (begin nextKey capacity).IsSound :=
  fun _ => Markup.Cache.isSound_ofCapacity _

end Process

/-- A computation of a process draws keys from its counter. -/
def KeyM.inProcess {α : Type} (k : KeyM α) : StateM Process α := fun p =>
  ((k p.nextKey).1, { p with nextKey := (k p.nextKey).2 })

/-- A computation of a compiler uses the counter of its process and one of the caches. -/
def CompileM.inProcess {α : Type} (m : CompileM α) (cache : Nat) : StateM Process α := fun p =>
  let (a, w) := m { nextKey := p.nextKey, cache := p.caches cache }
  (a, { nextKey := w.nextKey, caches := Function.update p.caches cache w.cache })

/-- One thing that a process does.  Compilers that are copies of each other name the same cache. -/
inductive Call where
  /-- A key is drawn for another use. -/
  | key (language : String)
  /-- A fence is rendered by itself. -/
  | fence (o : Options) (t : Token)
  /-- A stream is annotated and compiled. -/
  | compile (cache : Nat) (call : CompileCall)
  /-- A stream is compiled as it is. -/
  | compileInner (cache : Nat) (call : CompileCall)

namespace Call

/-- The nodes that a call makes. -/
def run : Call → StateM Process (List Node)
  | .key language => KeyM.inProcess do
    let _ ← blockKey language
    pure []
  | .fence o t => KeyM.inProcess do
    let n ← renderFence o t
    pure [n]
  | .compile cache call => call.run.inProcess cache
  | .compileInner cache call =>
    (call.compiler.compileInner call.env call.tokens).inProcess cache

def brought : Call → List String
  | .key _ => []
  | .fence .. => []
  | .compile _ call => Token.broughtAll call.tokens
  | .compileInner _ call => Token.broughtAll call.tokens

/-- The rules of a call draw a key for each block that they make.  Fences always do. -/
def DrawsKeys : Call → Prop
  | .key _ => True
  | .fence .. => True
  | .compile _ call => call.compiler.DrawsKeys
  | .compileInner _ call => call.compiler.DrawsKeys

/-- Each key of a result is one that a call was brought or one that it drew, and it takes none of
them twice. -/
structure KeepsKeys (p p' : Process) (brought made : List String) : Prop where
  sound : p'.IsSound
  keys : ∃ drawn, Draws p.nextKey p'.nextKey drawn ∧ made.Subperm (brought ++ drawn)

end Call

variable {p : Process}

theorem CompileM.KeepsKeys.inProcess {m : CompileM (List Node)} {given : List String}
    (hm : m.KeepsKeys given Node.keysAll) (cache : Nat) (hp : p.IsSound) :
    Call.KeepsKeys p (m.inProcess cache p).2 given (Node.keysAll (m.inProcess cache p).1) := by
  rcases hm ⟨p.nextKey, p.caches cache⟩ (hp cache) with ⟨hsound, hkeys⟩
  refine ⟨?_, hkeys⟩
  intro other
  change (Function.update p.caches cache _ other).IsSound
  by_cases hother : other = cache
  · rw [hother, Function.update_self]
    exact hsound
  · rw [Function.update_of_ne hother]
    exact hp other

namespace Call

/-- What one call of a process keeps. -/
theorem keepsKeys_run {call : Call} (h : call.DrawsKeys) (hp : p.IsSound) :
    KeepsKeys p (call.run p).2 call.brought (Node.keysAll (call.run p).1) := by
  cases call with
  | key language =>
      exact ⟨hp, [], .nil (Nat.le_succ _), List.nil_subperm⟩
  | fence o t =>
      refine ⟨hp, _, draws_renderFence o t p.nextKey, ?_⟩
      change (Node.keysAll [(renderFence o t p.nextKey).1]).Subperm _
      rw [Node.keysAll_cons, Node.keysAll_nil, List.append_nil]
      exact List.Subperm.refl _
  | compile cache call =>
      have hcompile := Compiler.DrawsKeys.innerForest h call.env
        (some (annotate call.env call.tokens))
      rw [Token.broughtInside, broughtAll_annotate] at hcompile
      exact hcompile.inProcess cache hp
  | compileInner cache call =>
      have hcompile := Compiler.DrawsKeys.innerForest h call.env (some call.tokens)
      exact hcompile.inProcess cache hp

/-- What all calls of a process keep. -/
theorem keepsKeys_mapM_run {calls : List Call} (h : ∀ call ∈ calls, call.DrawsKeys)
    (hp : p.IsSound) :
    KeepsKeys p (calls.mapM run p).2 (calls.flatMap brought)
      (Node.keysAll (calls.mapM run p).1.flatten) := by
  induction calls generalizing p with
  | nil => exact ⟨hp, [], .nil (Nat.le_refl _), List.nil_subperm⟩
  | cons call calls ih =>
      rcases List.forall_mem_cons.1 h with ⟨hcall, hcalls⟩
      rcases keepsKeys_run hcall hp with ⟨hsound, drawn, hdrawn, hkeys⟩
      -- The other calls find the process that the first one leaves.
      rcases ih hcalls hsound with ⟨hsound', drawn', hdrawn', hkeys'⟩
      rw [List.mapM_cons]
      refine ⟨hsound', drawn ++ drawn', hdrawn.append hdrawn', ?_⟩
      change (Node.keysAll ((call.run p).1 ++ (calls.mapM run (call.run p).2).1.flatten)).Subperm _
      rw [Node.keysAll_append, List.flatMap_cons]
      have hall := ((List.subperm_append_right _).2 hkeys).trans
        ((List.subperm_append_left (call.brought ++ drawn)).2 hkeys')
      have hswap : ((call.brought ++ drawn) ++ (calls.flatMap brought ++ drawn')).Perm
          ((call.brought ++ calls.flatMap brought) ++ (drawn ++ drawn')) := by
        rw [List.append_assoc, List.append_assoc]
        exact (List.perm_append_comm_assoc ..).append_left _
      exact hall.trans hswap.subperm

end Call

/-- Some of several distinct keys, in any order, are distinct. -/
theorem nodup_of_subperm {as bs : List String} (h : as.Subperm bs) (hb : bs.Nodup) : as.Nodup := by
  rcases h with ⟨cs, hperm, hsublist⟩
  exact hperm.nodup_iff.1 (hb.sublist hsublist)

/-- A fence that a resolver takes over becomes a rich block with a key.  No two of these blocks have
one key, nor are two of the nodes equal of which one is such a block, whatever the info strings and
the answers of the resolvers are.  The same holds of all nodes that a process makes, with any
compilers and in any order, if the rules draw a key for each block that they make, as the built-in
rules do, and if the blocks that tokens bring along were made earlier.  Any node, on the other hand,
is equal to its clones at all times. -/
theorem areToldApart_of_calls :
    (∀ (o : Options) (t : Token) (resolve : Resolver) (n : Nat), o.resolver = some resolve →
        ¬ LeavesAlone (resolve (CodeBlock.ofToken t)) →
          ∃ block, renderFence o t n = (block, n + 1) ∧ block.blocks = [block] ∧
            block.key? = some (keyText (CodeBlock.ofToken t).language n)) ∧
      (∀ (renders : List (Options × Token)) (n : Nat),
        Node.AreToldApart (renders.mapM (fun r => renderFence r.1 r.2) n).1) ∧
      (∀ (calls : List Call) (p : Process) (k : Nat), p.IsSound →
        (∀ call ∈ calls, call.DrawsKeys) → Draws k p.nextKey (calls.flatMap Call.brought) →
          Node.AreToldApart (calls.mapM Call.run p).1.flatten) ∧
      (∀ c : Compiler, c.rules = RuleTable.standard → c.DrawsKeys) ∧
      ∀ (n : Node) (slot slot' : Deferred Node → Option (Loader Node) × SlotState Node),
        (n.later slot).same (n.later slot') = true := by
  refine ⟨?_, ?_, ?_, ?_, ?_⟩
  · intro o t resolve n hresolver halone
    exact exists_block_of_not_leavesAlone hresolver halone n
  · intro renders n
    exact Node.areToldApart_of_nodup (draws_mapM_renderFence renders n).nodup
  · intro calls p k hp hcalls hbrought
    rcases Call.keepsKeys_mapM_run hcalls hp with ⟨_, drawn, hdrawn, hkeys⟩
    -- The process draws behind all keys that it was brought.
    have hall : (calls.flatMap Call.brought ++ drawn).Nodup := (hbrought.append hdrawn).nodup
    exact Node.areToldApart_of_nodup (nodup_of_subperm hkeys hall)
  · intro c hrules e he
    rw [hrules] at he
    exact RuleTable.drawsKeys_standard e he
  · exact fun n slot slot' => Node.same_later slot slot' n

/-- A language that ends like a key, under two compilers with caches of their own and between them
fences by themselves; one token brings a block along that was made earlier. -/
theorem areToldApart_of_calls_languages :
    let resolve : Resolver := fun b =>
      if b.language == "chart" then
        .value (.ok (some (.component "chart" fun _ => .panic .other)))
      else if b.language == "js" then .value (.ok (some (.descriptor { name := "viewer" })))
      else if b.language == "js-1" then .value (.ok (some (.deferred .never)))
      else .value (.error (.load "down"))
    let fence : String → Token := fun info => { kind := "fence", info, block := true }
    let early : Node := .component
      { reference := .descriptor { name := "viewer" }
        key := "js-1"
        block := {}
        fallback := .empty }
    let kept : Token :=
      { kind := "html_block", details := some { node := some early }, block := true }
    let first : Compiler := { options := { resolver := some resolve } }
    let calls : List Call :=
      [.compile 0 ⟨first, {}, [fence "js-1", kept, fence "js"]⟩, .key "js",
        .fence { resolver := some resolve } (fence "chart"), .fence {} (fence "js"),
        .fence { resolver := some resolve } (fence "rs"),
        .compileInner 1 ⟨{}, .safe, [fence "js"]⟩]
    let p : Process := .begin 2 fun _ => 1
    p.IsSound ∧ (∀ call ∈ calls, call.DrawsKeys) ∧
      Draws 1 p.nextKey (calls.flatMap Call.brought) ∧
      Node.keysAll (calls.mapM Call.run p).1.flatten = ["js-1-2", "js-1", "js-3", "chart-5"] ∧
      Node.AreToldApart (calls.mapM Call.run p).1.flatten ∧
      ∃ block, renderFence first.options (fence "js-1") 2 = (block, 3) ∧ block.blocks = [block] ∧
        block.key? = some "js-1-2" := by
  intro resolve fence early kept first calls p
  have hp : p.IsSound := Process.isSound_begin 2 _
  have hcalls : ∀ call ∈ calls, call.DrawsKeys := by
    simp only [calls, List.forall_mem_cons]
    exact ⟨areToldApart_of_calls.2.2.2.1 first rfl, trivial, trivial, trivial, trivial,
      areToldApart_of_calls.2.2.2.1 {} rfl, List.forall_mem_nil _⟩
  have hbrought : Draws 1 p.nextKey (calls.flatMap Call.brought) := Draws.one "js" 1
  have hkeys : Node.keysAll (calls.mapM Call.run p).1.flatten =
      ["js-1-2", "js-1", "js-3", "chart-5"] := by decide
  have hlanguage : (CodeBlock.ofToken (fence "js-1")).language = "js-1" := by decide
  have hkey : keyText "js-1" 2 = "js-1-2" := by decide
  have htaken : ¬ LeavesAlone (resolve (CodeBlock.ofToken (fence "js-1"))) := by
    simp only [resolve, hlanguage]
    rintro ⟨⟩
  have hblock := areToldApart_of_calls.1 first.options (fence "js-1") resolve 2 rfl htaken
  rw [hlanguage, hkey] at hblock
  exact ⟨hp, hcalls, hbrought, hkeys,
    areToldApart_of_calls.2.2.1 calls p 1 hp hcalls hbrought, hblock⟩

end RenderForest
