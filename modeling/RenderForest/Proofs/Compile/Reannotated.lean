import Mathlib
import RenderForest.Proofs.Compile.SharedCache
import RenderForest.Proofs.Stream.AttributeViews
import RenderForest.Proofs.Stream.Neutralized
/-!
# Reannotated — what the annotation leaves alone, and what a second one finds

The annotation writes attributes and extra data in place.  This file defines:

* `Token.KeepsAttrs`, what it may do to a list of attributes;
* `Token.Keeps`, what it may do to a token and the tokens inside it;

and shows in `keeps_annotate` that it does no more, and that a second annotation changes nothing,
so that tokens which were compiled before give the same forest again.
-/

namespace RenderForest

/-! ## Setting entries in place -/

namespace Attributes

variable {name value : String} {l : List (String × String)}

/-- An entry that stood at a place is still there, or has the name that was set. -/
theorem getElem?_setEntries {i : Nat} {a b : String × String} (ha : l[i]? = some a)
    (hb : (setEntries name value l)[i]? = some b) : b = a ∨ a.1 = name := by
  induction l generalizing i with
  | nil => cases ha
  | cons e rest ih =>
      rcases e with ⟨n, v⟩
      by_cases hn : n = name
      · cases i with
        | zero =>
            cases ha
            exact Or.inr hn
        | succ i =>
            simp only [setEntries, beq_iff_eq, hn, if_true, List.getElem?_cons_succ] at ha hb
            rw [ha] at hb
            exact Or.inl (Option.some.inj hb).symm
      · simp only [setEntries, beq_iff_eq, hn, if_false] at hb
        cases i with
        | zero =>
            cases ha
            cases hb
            exact Or.inl rfl
        | succ i => exact ih ha hb

end Attributes

/-! ## What may change -/

namespace Token

/-- No attribute is removed, renamed or moved.  A value stays, unless it is unsafe and emptied in
safe mode.  A block at the top is marked: the values of its bookkeeping attributes may be written,
and those that it does not have may be added behind all others. -/
structure KeepsAttrs (env : Env) (marked : Bool) (old new : List (String × String)) : Prop where
  names : ∃ added, Attributes.names new = Attributes.names old ++ added ∧
    ∀ n ∈ added, marked = true ∧ isSourceAttr n = true ∧ n ∉ Attributes.names old
  values : ∀ (i : Nat) (a b : String × String), old[i]? = some a → new[i]? = some b →
    b.2 = a.2 ∨ env.safeMode = true ∧ Safety.isSafeValue a.1 a.2 = false ∧ b.2 = "" ∨
      marked = true ∧ isSourceAttr a.1 = true

/-- All fields but the attributes and the extra data stay, at any depth.  Of the extra data only
the copy of the attributes may change, and only on a block at the top. -/
inductive Keeps (env : Env) : Bool → Token → Token → Prop where
  | intro {top : Bool} {t u : Token}
      (fields : u = { t with attrs := u.attrs, details := u.details, children := u.children })
      (attrs : KeepsAttrs env (top && t.block) t.attrs u.attrs)
      (details : ∃ copy, u.details = some { t.details.getD {} with attrs := copy } ∧
        ((top && t.block) = false → copy = (t.details.getD {}).attrs))
      (children : Option.Rel (List.Forall₂ (Keeps env false)) t.children u.children) :
      Keeps env top t u

variable {env : Env} {marked : Bool} {old new : List (String × String)}

/-! ## The annotation keeps the rest -/

theorem keepsAttrs_foundAttrs (env : Env) (marked : Bool) (t : Token) :
    KeepsAttrs env marked t.attrs (t.foundAttrs env) := by
  constructor
  · exact ⟨[], by rw [names_foundAttrs, List.append_nil], fun n hn => by cases hn⟩
  · intro i a b ha hb
    unfold foundAttrs at hb
    split at hb
    · rename_i hsafe
      rw [List.getElem?_map, ha] at hb
      cases hb
      unfold neutralize
      split
      · exact Or.inl rfl
      · rename_i hvalue
        exact Or.inr (Or.inl ⟨hsafe, Bool.not_eq_true _ ▸ hvalue, rfl⟩)
    · rw [ha] at hb
      cases hb
      exact Or.inl rfl

/-- A bookkeeping attribute may be set on a marked token. -/
theorem KeepsAttrs.set (h : KeepsAttrs env true old new) {name : String}
    (hname : isSourceAttr name = true) (value : String) :
    KeepsAttrs env true old (Attributes.setEntries name value new) := by
  rcases h.names with ⟨added, hadded, hnew⟩
  constructor
  · rw [Attributes.names_setEntries, hadded]
    split
    · exact ⟨added, rfl, hnew⟩
    · rename_i hmem
      refine ⟨added ++ [name], List.append_assoc .., ?_⟩
      intro n hn
      rcases List.mem_append.1 hn with hn | hn
      · exact hnew n hn
      · rw [List.mem_singleton.1 hn]
        exact ⟨rfl, hname, fun hold => hmem (List.mem_append_left _ hold)⟩
  · intro i a b ha hb
    -- The names at this place are the same before and after the other changes.
    have hi : i < (Attributes.names old).length := by
      rw [Attributes.names, List.length_map]
      exact (List.getElem?_eq_some_iff.1 ha).1
    have hsame : (Attributes.names new)[i]? = some a.1 := by
      rw [hadded, List.getElem?_append_left hi, Attributes.names, List.getElem?_map, ha]
      rfl
    rw [Attributes.names, List.getElem?_map] at hsame
    rcases Option.map_eq_some_iff.1 hsame with ⟨c, hc, hca⟩
    rcases Attributes.getElem?_setEntries hc hb with rfl | hset
    · exact h.values i a b ha hc
    · refine Or.inr (Or.inr ⟨rfl, ?_⟩)
      rw [← hca, hset]
      exact hname

mutual

theorem keeps_prepare (env : Env) : ∀ t : Token, Keeps env false t (t.prepare env.safeMode)
  | ⟨_, _, _, _, _, _, children, _, _, _, _, _, _⟩ =>
    .intro rfl (keepsAttrs_foundAttrs env false _) ⟨_, rfl, fun _ => rfl⟩
      (keeps_prepareInner env children)

theorem keeps_prepareInner (env : Env) : ∀ ts : Option (List Token),
    Option.Rel (List.Forall₂ (Keeps env false)) ts (prepareInner env.safeMode ts)
  | none => .none
  | some ts => .some (keeps_prepareList env ts)

theorem keeps_prepareList (env : Env) : ∀ ts : List Token,
    List.Forall₂ (Keeps env false) ts (prepareList env.safeMode ts)
  | [] => .nil
  | t :: rest => .cons (keeps_prepare env t) (keeps_prepareList env rest)

end

/-- The attributes of a marked block keep what they must. -/
theorem keepsAttrs_annotate {t : Token} (hblock : t.block = true) (env : Env) (i : Nat) :
    KeepsAttrs env true t.attrs (t.annotate env i).attrs := by
  have hfound := keepsAttrs_foundAttrs env true t
  rw [attrs_annotate hblock]
  refine KeepsAttrs.set ?_ (by decide) _
  split
  · exact hfound
  · exact (hfound.set (by decide) _).set (by decide) _

theorem keeps_annotateAt (env : Env) (i : Nat) (t : Token) :
    Keeps env true t (t.annotate env i) := by
  have hchildren := keeps_prepareInner env t.children
  cases hblock : t.block with
  | false =>
      -- Tokens that are no blocks are only prepared.
      have hannotate : t.annotate env i = t.prepare env.safeMode := by
        rcases t with ⟨kind, tag, attrs, map, nesting, level, children, content, markup, info,
          data, block, hidden⟩
        cases hblock
        rfl
      rw [hannotate]
      rcases keeps_prepare env t with ⟨hfields, hattrs, hdetails, hinner⟩
      refine .intro hfields ?_ ?_ hinner
      · rw [hblock]
        exact hattrs
      · rw [hblock]
        exact hdetails
  | true =>
      have hattrs := keepsAttrs_annotate hblock env i
      rcases t with ⟨kind, tag, attrs, map, nesting, level, children, content, markup, info, data,
        block, hidden⟩
      cases hblock
      -- Without lines and with them, only the attributes and their copy are written.
      cases map with
      | none => exact .intro rfl hattrs ⟨_, rfl, fun h => by cases h⟩ hchildren
      | some lines => exact .intro rfl hattrs ⟨_, rfl, fun h => by cases h⟩ hchildren

/-! ## A second annotation -/

theorem neutralize_of_safe {a : String × String} (h : Safety.isSafeValue a.1 a.2 = true) :
    neutralize a = a :=
  if_pos h

theorem neutralize_neutralize (a : String × String) : neutralize (neutralize a) = neutralize a :=
  neutralize_of_safe (Safety.isSafeValue_neutralize a)

mutual

theorem prepare_prepare (safe : Bool) :
    ∀ t : Token, (t.prepare safe).prepare safe = t.prepare safe
  | ⟨kind, tag, attrs, map, nesting, level, children, content, markup, info, data, block,
      hidden⟩ => by
    have hchildren := prepareInner_prepareInner safe children
    cases safe <;> simp [prepare, hchildren, Function.comp_def, neutralize_neutralize]

theorem prepareInner_prepareInner (safe : Bool) :
    ∀ ts : Option (List Token), prepareInner safe (prepareInner safe ts) = prepareInner safe ts
  | none => rfl
  | some ts => congrArg some (prepareList_prepareList safe ts)

theorem prepareList_prepareList (safe : Bool) :
    ∀ ts : List Token, prepareList safe (prepareList safe ts) = prepareList safe ts
  | [] => rfl
  | t :: rest =>
    congrArg₂ List.cons (prepare_prepare safe t) (prepareList_prepareList safe rest)

end

theorem isSome_details_annotate (env : Env) (i : Nat) (t : Token) :
    (t.annotate env i).details.isSome = true := by
  rcases keeps_annotateAt env i t with ⟨_, _, ⟨_, hdetails, _⟩, _⟩
  rw [hdetails]
  rfl

/-- There is nothing left to prepare in an annotated token. -/
theorem prepare_annotate (env : Env) (i : Nat) (t : Token) :
    (t.annotate env i).prepare env.safeMode = t.annotate env i := by
  have hchildren : prepareInner env.safeMode (t.annotate env i).children =
      (t.annotate env i).children := by
    rw [children_annotate, children_prepare]
    exact prepareInner_prepareInner env.safeMode t.children
  have hattrs : (if env.safeMode then (t.annotate env i).attrs.map neutralize
      else (t.annotate env i).attrs) = (t.annotate env i).attrs := by
    split
    · rename_i hsafe
      have hvalues : (t.annotate env i).HasSafeValues := by
        refine HasSafeValues.annotate ?_
        rw [hsafe]
        exact hasSafeValues_prepare t
      exact (List.map_congr_left fun a ha => neutralize_of_safe (hvalues a ha)).trans
        (List.map_id _)
    · rfl
  rcases Option.isSome_iff_exists.1 (isSome_details_annotate env i t) with ⟨m, hm⟩
  generalize t.annotate env i = u at hchildren hattrs hm
  rcases u with ⟨kind, tag, attrs, map, nesting, level, children, content, markup, info, data,
    block, hidden⟩
  cases hm
  rw [prepare, hchildren, hattrs]
  rfl

theorem setAttr_of_attr? {t : Token} {name value : String} (h : t.attr? name = some value) :
    t.setAttr name value = t := by
  rw [setAttr, Attributes.setEntries_of_lookup h]
  cases t
  rfl

theorem mirrorAttrs_of_copy {t : Token}
    (h : t.details.map TokenMeta.attrs = some (Catalog.ofEntries t.attrs)) : t.mirrorAttrs = t := by
  rcases Option.map_eq_some_iff.1 h with ⟨m, hm, hattrs⟩
  rw [mirrorAttrs, hm, ← hattrs]
  rcases t with ⟨kind, tag, attrs, map, nesting, level, children, content, markup, info, data,
    block, hidden⟩
  cases hm
  rfl

theorem lineRange_congr {t u : Token} (h : u.map = t.map) (env : Env) :
    u.lineRange env = t.lineRange env := by
  rw [lineRange, lineRange, h]

/-- The values that would be written are there already. -/
theorem annotate_annotate (env : Env) (i : Nat) (t : Token) :
    (t.annotate env i).annotate env i = t.annotate env i := by
  have hprepare := prepare_annotate env i t
  have hfields : (t.annotate env i).map = t.map ∧ (t.annotate env i).block = t.block := by
    rcases keeps_annotateAt env i t with ⟨hfields, _, _, _⟩
    rw [hfields]
    exact ⟨rfl, rfl⟩
  have hunfold : (t.annotate env i).annotate env i =
      if (t.annotate env i).block then
        (((t.annotate env i).markLines env).setAttr SourceAttr.tokenIndex (toString i)).mirrorAttrs
      else t.annotate env i := by
    rw [annotate, hprepare]
  rw [hunfold, hfields.2]
  split
  · rename_i hblock
    have hlines : (t.annotate env i).markLines env = t.annotate env i := by
      rw [markLines, hfields.1, lineRange_congr hfields.1]
      split
      · rfl
      · rename_i m hmap
        rcases attr?_annotate_lines hblock hmap env i with ⟨hstart, hend⟩
        simp only
        rw [setAttr_of_attr? hstart, setAttr_of_attr? hend]
    rw [hlines, setAttr_of_attr? (attr?_annotate_tokenIndex hblock env i)]
    exact mirrorAttrs_of_copy (copy_annotate hblock env i)
  · rfl

end Token

theorem annotate_annotate (env : Env) (tokens : List Token) :
    annotate env (annotate env tokens) = annotate env tokens := by
  rw [annotate, annotate, List.mapIdx_mapIdx]
  refine congrArg (fun f => List.mapIdx f tokens) ?_
  funext i t
  exact Token.annotate_annotate env i t

/-! ## A second compilation -/

/-- The annotation keeps the tokens of a stream, each with all its fields at any depth, but for
what it may write to attributes and extra data.  A second one changes nothing.  Hence a compiler
whose rules are functions, such as the built-in ones, gives the tokens that it left the same forest
again, whatever its workspace has gone through in between. -/
theorem keeps_annotate (env : Env) (tokens : List Token) :
    List.Forall₂ (Token.Keeps env true) tokens (annotate env tokens) ∧
      annotate env (annotate env tokens) = annotate env tokens ∧
      ∀ c : Compiler, c.IsFunction → ∀ w : Workspace, w.cache.IsSound →
        (c.compile env tokens w).2.cache.IsSound ∧
          ∀ later : Workspace, later.cache.IsSound →
            (c.compile env (annotate env tokens) later).1 = (c.compile env tokens w).1 := by
  have hagain := annotate_annotate env tokens
  refine ⟨?_, hagain, ?_⟩
  · refine List.forall₂_iff_get.2 ⟨List.length_mapIdx.symm, ?_⟩
    intro i hi hi'
    simp only [annotate, List.get_eq_getElem, List.getElem_mapIdx]
    exact Token.keeps_annotateAt env i _
  · intro c hc w hw
    rcases hc.isStable_compile env tokens with ⟨forest, hforest⟩
    refine ⟨(hforest w hw).2, ?_⟩
    intro later hlater
    -- The second compilation finds the tokens that the first one has annotated.
    have hsame : c.compile env (annotate env tokens) = c.compile env tokens :=
      congrArg (c.compileInner env) hagain
    rw [hsame, (hforest later hlater).1, (hforest w hw).1]

/-- A paragraph with an index of its author, around a link to a script, compiled twice in safe
mode. -/
theorem keeps_annotate_paragraph :
    let tokens : List Token :=
      [ { kind := "paragraph_open", tag := "p", attrs := [(SourceAttr.tokenIndex, "7")]
          map := some (0, 1), nesting := .opening, block := true },
        { kind := "inline"
          block := true
          children := some
            [ { kind := "link_open", tag := "a", attrs := [("href", "javascript:alert(1)")]
                nesting := .opening },
              { kind := "link_close", tag := "a", nesting := .closing } ] },
        { kind := "paragraph_close", tag := "p", nesting := .closing, block := true } ]
    ({} : Compiler).IsFunction ∧ (Workspace.fresh 1).cache.IsSound ∧
      (({} : Compiler).compile .safe (annotate .safe tokens)
          (({} : Compiler).compile .safe tokens (Workspace.fresh 1)).2).1 =
        (({} : Compiler).compile .safe tokens (Workspace.fresh 1)).1 := by
  intro tokens
  have hfunction : ({} : Compiler).IsFunction := ⟨rfl, RuleTable.isFunction_standard⟩
  have hsound := Workspace.isSound_fresh 1
  rcases (keeps_annotate .safe tokens).2.2 {} hfunction _ hsound with ⟨hafter, hagain⟩
  exact ⟨hfunction, hsound, hagain _ hafter⟩

end RenderForest
