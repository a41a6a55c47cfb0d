import RenderForest.Compile.Compiler
import RenderForest.Proofs.Forest.Assembly
/-!
# Compiled — the forest that a compiler makes of its tokens

Rules are arbitrary, so that a token may show anything; what is made of it depends on nothing but
the nesting marks and on which nodes take children.  This file defines:

* `Compiler.stream`, what the tokens of a stream show;
* `Forest.Built`, that a forest is the outline of a stream;

and shows in `compile_built` that each forest of a compiler is built so, whether its tokens are
annotated first or not.
-/

namespace RenderForest

/-- What the tokens of a stream show, one after another. -/
def Compiler.stream (c : Compiler) (env : Env) (tokens : List Token) (w : Workspace) :
    List Forest.Shown :=
  (c.shownList env tokens tokens 0 w).1

namespace Forest

/-- What token of a stream shows what; the workspace is the one that the tokens before it left. -/
def Shows (c : Compiler) (env : Env) (tokens : List Token) (stream : List Shown) : Prop :=
  stream.length = tokens.length ∧
    ∀ (i : Nat) (t : Token), tokens[i]? = some t →
      ∃ w, stream[i]? = some ⟨(c.shown env t tokens i w).1, t.nesting⟩

/-- A forest is made of what tokens show: it is the outline of the stream, in which each produced
node has one site, and stands once. -/
structure Built (c : Compiler) (env : Env) (tokens : List Token) (stream : List Shown)
    (forest : List Node) : Prop where
  shows : Shows c env tokens stream
  forest_eq : forest = outline stream
  nodup : (sites stream).Nodup
  once : ((rootSites stream).flatMap (sitesBelow stream)).Perm (sites stream)

theorem shownList_cons (c : Compiler) (env : Env) (t : Token) (rest stream : List Token)
    (index : Nat) (w : Workspace) :
    (c.shownList env (t :: rest) stream index w).1 =
      ⟨(c.shown env t stream index w).1, t.nesting⟩ ::
        (c.shownList env rest stream (index + 1) (c.shown env t stream index w).2).1 := by
  rw [Compiler.shownList]
  rfl

theorem shows_shownList (c : Compiler) (env : Env) (rest stream : List Token) (index : Nat)
    (w : Workspace) :
    (c.shownList env rest stream index w).1.length = rest.length ∧
      ∀ (i : Nat) (t : Token), rest[i]? = some t →
        ∃ w', (c.shownList env rest stream index w).1[i]? =
          some ⟨(c.shown env t stream (index + i) w').1, t.nesting⟩ := by
  -- The workspace goes from token to token, and so does the index.
  induction rest generalizing index w with
  | nil =>
      rw [Compiler.shownList]
      exact ⟨rfl, fun i t h => by simp at h⟩
  | cons t rest ih =>
      rcases ih (index + 1) (c.shown env t stream index w).2 with ⟨hlength, hshown⟩
      rw [shownList_cons]
      refine ⟨by simp [hlength], ?_⟩
      intro i u hu
      cases i with
      | zero =>
          cases hu
          exact ⟨w, rfl⟩
      | succ i =>
          rcases hshown i u hu with ⟨w', hw'⟩
          refine ⟨w', ?_⟩
          rw [List.getElem?_cons_succ, hw', Nat.add_right_comm, Nat.add_assoc]

theorem compileInner_fst (c : Compiler) (env : Env) (tokens : List Token) (w : Workspace) :
    (c.compileInner env tokens w).1 = build (c.stream env tokens w) := by
  rw [Compiler.compileInner, Compiler.innerForest]
  rfl

theorem built_compileInner (c : Compiler) (env : Env) (tokens : List Token) (w : Workspace) :
    Built c env tokens (c.stream env tokens w) (c.compileInner env tokens w).1 where
  shows := by
    rcases shows_shownList c env tokens tokens 0 w with ⟨hlength, hshown⟩
    exact ⟨hlength, fun i t ht => by simpa [Compiler.stream] using hshown i t ht⟩
  forest_eq := (compileInner_fst c env tokens w).trans (build_eq_outline _)
  nodup := nodup_sites _
  once := flatMap_sitesBelow_perm _

/-- Every forest of a compiler is the outline of what its tokens show: nodes hang below that of
the innermost token that is open when they are produced, if it shows one that takes children, in
the order of production, and no node is lost or stands twice. -/
theorem compile_built (c : Compiler) (env : Env) (tokens : List Token) (w : Workspace) :
    Built c env tokens (c.stream env tokens w) (c.compileInner env tokens w).1 ∧
      Built c env (annotate env tokens) (c.stream env (annotate env tokens) w)
        (c.compile env tokens w).1 :=
  ⟨built_compileInner c env tokens w, built_compileInner c env (annotate env tokens) w⟩

/-- What an opening token without a node holds goes to the roots, and its end closes no other. -/
example :
    build
      [ ⟨some (.plain "section" .empty [], none), .opening⟩, ⟨none, .opening⟩,
        ⟨some (.text "inner", none), .selfClosing⟩, ⟨none, .closing⟩,
        ⟨some (.text "tail", none), .selfClosing⟩ ] =
      [.plain "section" .empty [.text "tail"], .text "inner"] := by
  rfl

end Forest
end RenderForest
