import RenderForest.Compile.Forest
import RenderForest.Compile.Rule
import RenderForest.Markup.Cache
/-!
# Compiler — from token streams to render forests

A compiler has settings and rules.  While it works it hands out keys and keeps parsed markup,
both in its workspace.  This file defines:

* `Compiler` and `Workspace`;
* `Compiler.show`, what each token of a stream shows, and `Compiler.compileInner`, the forest of
  a stream;
* `Compiler.compile`, which annotates a stream first.
-/

namespace RenderForest

structure Compiler where
  options : Options := {}
  rules : RuleTable := RuleTable.standard

instance : Inhabited Compiler := ⟨{}⟩

/-- The next key and the parsed markup. -/
structure Workspace where
  nextKey : Nat := 1
  cache : Markup.Cache := default

instance : Inhabited Workspace := ⟨{}⟩

abbrev CompileM := StateM Workspace

def KeyM.lift (k : KeyM α) : CompileM α := fun w =>
  let (a, next) := k w.nextKey
  (a, { w with nextKey := next })

def parseCached (raw : String) (policy : Markup.Policy) : CompileM (List Node) := fun w =>
  let (nodes, cache) := w.cache.parse raw policy
  (nodes, { w with cache })

def Env.policy (env : Env) : Markup.Policy :=
  if env.safeMode then .safe else .standard

namespace Compiler

mutual

/-- What the tokens of a stream show, from an index on. -/
def shownList (c : Compiler) (env : Env) :
    List Token → List Token → Nat → CompileM (List Forest.Shown)
  | [], _, _ => pure []
  | t :: rest, stream, index => do
    let output ← shown c env t stream index
    let more ← shownList c env rest stream (index + 1)
    pure (⟨output, t.nesting⟩ :: more)

def innerForest (c : Compiler) (env : Env) : Option (List Token) → CompileM (List Node)
  | none => pure []
  | some ts => do
    let stream ← shownList c env ts ts 0
    pure (Forest.build stream)

/-- What the token at an index of a stream shows. -/
def shown (c : Compiler) (env : Env) :
    Token → List Token → Nat → CompileM (Option (Node × Option Node))
  | ⟨kind, tag, attrs, map, nesting, level, children, content, markup, info, data, block, hidden⟩,
    stream, index => do
    let t : Token :=
      ⟨kind, tag, attrs, map, nesting, level, children, content, markup, info, data, block, hidden⟩
    if t.isInline then
      let forest ← innerForest c env children
      pure (some (.fragment forest, none))
    else
      match c.rules.find? kind with
      | none => pure (t.generic.map fun n => (n, none))
      | some rule =>
        let output ← KeyM.lift (rule ⟨stream, index, t, c.options, env⟩)
        match output with
        | .node n => pure (some (n, none))
        | .nodes ns => pure (some (.fragment ns, none))
        | .markup raw =>
          let nodes ← parseCached raw env.policy
          pure (some (Node.ofForest nodes, none))
        | .nested n inner => pure (some (n, some inner))
        | .inner wrap =>
          let forest ← innerForest c env children
          pure (some (wrap forest, none))
        | .suppress => pure none

end

/-- The forest of a stream that is already annotated, such as the tokens inside another. -/
def compileInner (c : Compiler) (env : Env) (tokens : List Token) : CompileM (List Node) :=
  innerForest c env (some tokens)

/-- The forest of a stream, which is annotated first. -/
def compile (c : Compiler) (env : Env) (tokens : List Token) : CompileM (List Node) :=
  compileInner c env (annotate env tokens)

end Compiler
end RenderForest
