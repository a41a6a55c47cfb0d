import RenderForest.Proofs.Compile.BuiltIn
/-!
# SafeMode — compiling in safe mode is compiling emptied values

Without raw markup, and with the built-in rules alone, safe mode does nothing but empty the values
that may not be written.  This file defines:

* `Compiler.IsBuiltIn`, that a compiler has the built-in rules and the host takes no hand;
* `Token.GrantedBy`, the elements that the tokens of a stream make at any depth;

and shows in `compile_safeMode` that safe mode and emptied values give the same tokens and the
same forest, in which only a code span has names that are not valid.
-/

namespace RenderForest

/-- The built-in rules, without a highlighter or a resolver of the host. -/
structure Compiler.IsBuiltIn (c : Compiler) : Prop where
  rules : c.rules = RuleTable.standard
  highlight : c.options.highlight = none
  resolver : c.options.resolver = none

namespace Compiler

/-! ## One token -/

variable {c : Compiler}

/-- A token of inline content shows the forest of what it holds. -/
theorem shown_inline (env : Env) {t : Token} (ht : t.isInline = true) (stream : List Token)
    (i : Nat) :
    c.shown env t stream i =
      (fun forest => some (.fragment forest, none)) <$> c.innerForest env t.children := by
  rcases t with ⟨kind, tag, attrs, map, nesting, level, children, content, markup, info, data,
    block, hidden⟩
  rw [shown, if_pos ht]
  rfl

/-- A token without a rule shows its generic render. -/
theorem shown_generic (env : Env) {t : Token} (ht : t.isInline = false)
    (hr : c.rules.find? t.kind = none) (stream : List Token) (i : Nat) :
    c.shown env t stream i = pure (t.generic.map fun n => (n, none)) := by
  rcases t with ⟨kind, tag, attrs, map, nesting, level, children, content, markup, info, data,
    block, hidden⟩
  rw [shown, if_neg (by simp [ht])]
  simp only at hr
  rw [hr]

/-- A token whose rule shows a node or nothing shows that. -/
theorem shown_of_shows (env : Env) {t : Token} (ht : t.isInline = false) {r : Rule}
    (hr : c.rules.find? t.kind = some r) {out : Option Node} (hout : r.Shows c.options t out)
    (stream : List Token) (i : Nat) :
    c.shown env t stream i = pure (out.map fun n => (n, none)) := by
  have hrule := hout stream i env
  rcases t with ⟨kind, tag, attrs, map, nesting, level, children, content, markup, info, data,
    block, hidden⟩
  rw [shown, if_neg (by simp [ht])]
  simp only at hr
  rw [hr]
  simp only
  rw [hrule]
  cases out <;> rfl

/-- Raw markup and inline content apart, a token shows one node or nothing, in all surroundings,
and with safe values only what it grants. -/
theorem IsBuiltIn.exists_shown (h : c.IsBuiltIn) {t : Token} (hraw : ¬ t.IsRaw)
    (ht : t.isInline = false) :
    ∃ out : Option Node,
      (∀ env stream i, c.shown env t stream i = pure (out.map fun n => (n, none))) ∧
        ∀ n, out = some n → t.HasSafeValues → n.Every t.Grants := by
  cases hr : c.rules.find? t.kind with
  | none =>
      -- Kinds without a rule get the generic render.
      exact ⟨t.generic, fun env stream i => shown_generic env ht hr stream i,
        fun n hn hsafe => hsafe.every_generic hn⟩
  | some r =>
      have hstandard : RuleTable.standard.find? t.kind = some r := h.rules ▸ hr
      rcases isGranted_of_find? hstandard hraw h.resolver h.highlight with ⟨out, hout, hevery⟩
      exact ⟨out, fun env stream i => shown_of_shows env ht hr hout stream i, hevery⟩

/-! ## The surroundings have no effect -/

mutual

/-- Only raw markup looks at the surroundings. -/
theorem IsBuiltIn.shown_env (h : c.IsBuiltIn) (env env' : Env) :
    ∀ t : Token, (∀ u ∈ t.deep, ¬ u.IsRaw) → ∀ (stream : List Token) (i : Nat),
      c.shown env t stream i = c.shown env' t stream i
  | ⟨kind, tag, attrs, map, nesting, level, children, content, markup, info, data, block,
      hidden⟩ => by
    intro hraw stream i
    rw [Token.deep_eq] at hraw
    rcases Bool.eq_false_or_eq_true (Token.isInline ⟨kind, tag, attrs, map, nesting, level,
      children, content, markup, info, data, block, hidden⟩) with ht | ht
    · rw [shown_inline env ht, shown_inline env' ht]
      rw [h.innerForest_env env env' children fun u hu => hraw u (List.mem_cons_of_mem _ hu)]
    · -- What any other token shows is the same in all surroundings.
      rcases h.exists_shown (hraw _ (List.mem_cons_self ..)) ht with ⟨out, hout, _⟩
      rw [hout, hout]

theorem IsBuiltIn.innerForest_env (h : c.IsBuiltIn) (env env' : Env) :
    ∀ ts : Option (List Token), (∀ u ∈ Token.deepInner ts, ¬ u.IsRaw) →
      c.innerForest env ts = c.innerForest env' ts
  | none => fun _ => by rw [innerForest, innerForest]
  | some ts => fun hraw => by
    rw [innerForest, innerForest, h.shownList_env env env' ts hraw]

theorem IsBuiltIn.shownList_env (h : c.IsBuiltIn) (env env' : Env) :
    ∀ ts : List Token, (∀ u ∈ Token.deepList ts, ¬ u.IsRaw) → ∀ (stream : List Token) (i : Nat),
      c.shownList env ts stream i = c.shownList env' ts stream i
  | [] => fun _ stream i => by rw [shownList, shownList]
  | t :: rest => fun hraw stream i => by
    rw [shownList, shownList]
    rw [h.shown_env env env' t fun u hu => hraw u (List.mem_append_left _ hu)]
    rw [h.shownList_env env env' rest fun u hu => hraw u (List.mem_append_right _ hu)]

end

/-! ## What tokens with safe values show -/

/-- A token without raw markup whose values are safe, and all whose elements have a property. -/
structure Yields (P : String → Attributes → Prop) (t : Token) : Prop where
  raw : ¬ t.IsRaw
  safe : t.HasSafeValues
  grants : ∀ tag attrs, t.Grants tag attrs → P tag attrs

mutual

theorem IsBuiltIn.shown_every (h : c.IsBuiltIn) (env : Env) {P : String → Attributes → Prop} :
    ∀ t : Token, (∀ u ∈ t.deep, Yields P u) →
      ∀ (stream : List Token) (i : Nat) (w : Workspace),
        Forest.Shown.Every P ⟨(c.shown env t stream i w).1, t.nesting⟩
  | ⟨kind, tag, attrs, map, nesting, level, children, content, markup, info, data, block,
      hidden⟩ => by
    intro hyields stream i w node inner hshown
    rw [Token.deep_eq] at hyields
    have hown := hyields _ (List.mem_cons_self ..)
    rcases Bool.eq_false_or_eq_true (Token.isInline ⟨kind, tag, attrs, map, nesting, level,
      children, content, markup, info, data, block, hidden⟩) with ht | ht
    · -- The fragment holds the forest of the tokens inside.
      have hforest := h.innerForest_every env children
        (fun u hu => hyields u (List.mem_cons_of_mem _ hu)) w
      rw [shown_inline env ht] at hshown
      cases hshown
      exact ⟨hforest, fun n hn => by cases hn⟩
    · rcases h.exists_shown hown.raw ht with ⟨out, hout, hevery⟩
      rw [hout] at hshown
      rcases Option.map_eq_some_iff.1 hshown with ⟨n, hn, heq⟩
      cases heq
      have hnode := Node.Every.mono hown.grants node (hevery node hn hown.safe)
      exact ⟨hnode, fun n hn => by cases hn⟩

theorem IsBuiltIn.innerForest_every (h : c.IsBuiltIn) (env : Env)
    {P : String → Attributes → Prop} :
    ∀ ts : Option (List Token), (∀ u ∈ Token.deepInner ts, Yields P u) →
      ∀ w : Workspace, Node.EveryIn P (c.innerForest env ts w).1
  | none => fun _ w => by
    rw [innerForest]
    trivial
  | some ts => fun hyields w => by
    have hshown := h.shownList_every env ts hyields ts 0 w
    rw [innerForest]
    exact Forest.everyIn_build hshown

theorem IsBuiltIn.shownList_every (h : c.IsBuiltIn) (env : Env)
    {P : String → Attributes → Prop} :
    ∀ ts : List Token, (∀ u ∈ Token.deepList ts, Yields P u) →
      ∀ (stream : List Token) (i : Nat) (w : Workspace),
        ∀ s ∈ (c.shownList env ts stream i w).1, s.Every P
  | [] => fun _ stream i w s hs => by
    rw [shownList] at hs
    cases hs
  | t :: rest => fun hyields stream i w s hs => by
    rw [Forest.shownList_cons] at hs
    rcases List.mem_cons.1 hs with rfl | hs
    · exact h.shown_every env t (fun u hu => hyields u (List.mem_append_left _ hu)) stream i w
    · exact h.shownList_every env rest (fun u hu => hyields u (List.mem_append_right _ hu)) stream
        (i + 1) _ s hs

end

end Compiler

/-! ## Safe mode -/

/-- The elements that some token of a stream grants, at any depth. -/
def Token.GrantedBy (tokens : List Token) (tag : String) (attrs : Attributes) : Prop :=
  ∃ t ∈ Token.deepList tokens, t.Grants tag attrs

/-- Without raw markup, and without a hand of the host, compiling in safe mode gives the tokens
and the forest of the stream whose unsafe values are emptied at any depth, compiled without it;
all values in that forest are safe, and only code spans have names that are not valid. -/
theorem compile_safeMode {c : Compiler} (h : c.IsBuiltIn) (env : Env) {tokens : List Token}
    (hraw : ∀ t ∈ Token.deepList tokens, ¬ t.IsRaw) (w : Workspace) :
    annotate { env with safeMode := true } tokens =
        annotate { env with safeMode := false } (tokens.map Token.neutralized) ∧
      c.compile { env with safeMode := true } tokens w =
        c.compile { env with safeMode := false } (tokens.map Token.neutralized) w ∧
      Node.EveryIn (Token.GrantedBy (annotate { env with safeMode := true } tokens))
        (c.compile { env with safeMode := true } tokens w).1 := by
  have hannotate := annotate_safe env tokens
  -- The annotation changes no kind, so that it makes no raw markup.
  have hraw' : ∀ u ∈ Token.deepList (annotate { env with safeMode := true } tokens),
      ¬ u.IsRaw := by
    intro u hu
    rcases kind_of_mem_annotate hu with ⟨t, ht, hkind⟩
    rw [Token.IsRaw, hkind]
    exact hraw t ht
  refine ⟨hannotate, ?_, ?_⟩
  · -- The annotated tokens are the same, and nothing else looks at the mode.
    rw [Compiler.compile, Compiler.compile, ← hannotate]
    exact congrFun (h.innerForest_env _ _ (some _) hraw') w
  · -- Each annotated token has safe values, and grants what it shows.
    refine h.innerForest_every _ (some _) ?_ w
    intro u hu
    exact ⟨hraw' u hu, hasSafeValues_annotate env tokens u hu, fun tag attrs hg => ⟨u, hu, hg⟩⟩

/-- A link to a script, around a code span with a name that is not valid. -/
theorem compile_safeMode_link :
    let tokens : List Token :=
      [ { kind := "paragraph_open", tag := "p", nesting := .opening, block := true },
        { kind := "inline"
          block := true
          children := some
            [ { kind := "link_open", tag := "a", attrs := [("href", "javascript:alert(1)")]
                nesting := .opening },
              { kind := "code_inline", tag := "code", attrs := [("1", "x")], content := "y" },
              { kind := "link_close", tag := "a", nesting := .closing } ] },
        { kind := "paragraph_close", tag := "p", nesting := .closing, block := true } ]
    ({} : Compiler).IsBuiltIn ∧ (∀ t ∈ Token.deepList tokens, ¬ t.IsRaw) ∧
      ({} : Compiler).compile { ({} : Env) with safeMode := true } tokens {} =
        ({} : Compiler).compile { ({} : Env) with safeMode := false }
          (tokens.map Token.neutralized) {} ∧
      Node.EveryIn (Token.GrantedBy (annotate { ({} : Env) with safeMode := true } tokens))
        (({} : Compiler).compile { ({} : Env) with safeMode := true } tokens {}).1 := by
  intro tokens
  have hbuiltIn : ({} : Compiler).IsBuiltIn := ⟨rfl, rfl, rfl⟩
  have hraw : ∀ t ∈ Token.deepList tokens, ¬ t.IsRaw := by
    simp only [tokens, Token.deepList, Token.deep, Token.deepInner, Token.IsRaw]
    decide
  exact ⟨hbuiltIn, hraw, (compile_safeMode hbuiltIn {} hraw {}).2⟩

end RenderForest
