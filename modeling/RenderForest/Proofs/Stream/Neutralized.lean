import RenderForest.Proofs.Tree.Writable
import RenderForest.Stream.Annotate
/-!
# Neutralized — emptying unsafe values at every depth

In safe mode the annotation of a stream empties the values that may not be written.  This file
defines:

* `Token.deep` and `Token.deepList`, the tokens of a stream at any depth;
* `Token.neutralized`, a token whose unsafe values are emptied at any depth;

and shows in `annotate_safe` that the annotation in safe mode is that of the neutralized tokens
without it, and in `hasSafeValues_annotate` that it leaves only safe values.
-/

namespace RenderForest

/-! ## Tokens at any depth -/

namespace Token

mutual

/-- A token and the tokens inside it at any depth. -/
def deep : Token → List Token
  | ⟨kind, tag, attrs, map, nesting, level, children, content, markup, info, data, block,
      hidden⟩ =>
    ⟨kind, tag, attrs, map, nesting, level, children, content, markup, info, data, block,
      hidden⟩ :: deepInner children

def deepInner : Option (List Token) → List Token
  | none => []
  | some ts => deepList ts

def deepList : List Token → List Token
  | [] => []
  | t :: rest => t.deep ++ deepList rest

end

theorem deep_eq (t : Token) : t.deep = t :: deepInner t.children := by
  cases t
  rfl

theorem mem_deepList {u : Token} {ts : List Token} :
    u ∈ deepList ts ↔ ∃ t ∈ ts, u ∈ t.deep := by
  induction ts with
  | nil => simp [deepList]
  | cons t rest ih => simp [deepList, ih]

/-- What holds of a token and of all tokens inside it. -/
theorem forall_mem_deep_iff {p : Token → Prop} {t : Token} :
    (∀ u ∈ t.deep, p u) ↔ p t ∧ ∀ u ∈ t.inner, ∀ v ∈ u.deep, p v := by
  rw [deep_eq, List.forall_mem_cons, inner]
  cases t.children with
  | none => simp [deepInner]
  | some ts =>
      simp only [deepInner, mem_deepList, Option.getD_some]
      refine and_congr_right fun _ => ?_
      constructor
      · intro h u hu v hv
        exact h v ⟨u, hu, hv⟩
      · rintro h v ⟨u, hu, hv⟩
        exact h u hu v hv

theorem mem_deepList_of_mem {t : Token} {ts : List Token} (h : t ∈ ts) : t ∈ deepList ts :=
  mem_deepList.2 ⟨t, h, deep_eq t ▸ List.mem_cons_self⟩

mutual

/-- The token with its unsafe values emptied at any depth. -/
def neutralized : Token → Token
  | ⟨kind, tag, attrs, map, nesting, level, children, content, markup, info, data, block,
      hidden⟩ =>
    ⟨kind, tag, attrs.map neutralize, map, nesting, level, neutralizedInner children, content,
      markup, info, data, block, hidden⟩

def neutralizedInner : Option (List Token) → Option (List Token)
  | none => none
  | some ts => some (neutralizedList ts)

def neutralizedList : List Token → List Token
  | [] => []
  | t :: rest => t.neutralized :: neutralizedList rest

end

/-! ## Preparing at every depth -/

mutual

/-- The tokens inside a token are prepared like the token itself. -/
theorem deep_prepare (safe : Bool) : ∀ t : Token, (t.prepare safe).deep = t.deep.map (prepare safe)
  | ⟨kind, tag, attrs, map, nesting, level, children, content, markup, info, data, block,
      hidden⟩ => by
    rw [prepare, deep, deep, deepInner_prepareInner safe children]
    rfl

theorem deepInner_prepareInner (safe : Bool) :
    ∀ ts : Option (List Token),
      deepInner (prepareInner safe ts) = (deepInner ts).map (prepare safe)
  | none => rfl
  | some ts => deepList_prepareList safe ts

theorem deepList_prepareList (safe : Bool) :
    ∀ ts : List Token, deepList (prepareList safe ts) = (deepList ts).map (prepare safe)
  | [] => rfl
  | t :: rest => by
    rw [prepareList, deepList, deepList, List.map_append, deep_prepare safe t,
      deepList_prepareList safe rest]

end

/-! ## Safe mode is neutralizing -/

mutual

theorem prepare_safe : ∀ t : Token, t.prepare true = t.neutralized.prepare false
  | ⟨kind, tag, attrs, map, nesting, level, children, content, markup, info, data, block,
      hidden⟩ => by
    simp [prepare, neutralized, prepareInner_safe children]

theorem prepareInner_safe :
    ∀ ts : Option (List Token), prepareInner true ts = prepareInner false (neutralizedInner ts)
  | none => rfl
  | some ts => by
    simp [prepareInner, neutralizedInner, prepareList_safe ts]

theorem prepareList_safe :
    ∀ ts : List Token, prepareList true ts = prepareList false (neutralizedList ts)
  | [] => rfl
  | t :: rest => by
    simp [prepareList, neutralizedList, prepare_safe t, prepareList_safe rest]

end

end Token

/-- A stream is annotated in safe mode as its neutralized tokens are without it. -/
theorem annotate_safe (env : Env) (tokens : List Token) :
    annotate { env with safeMode := true } tokens =
      annotate { env with safeMode := false } (tokens.map Token.neutralized) := by
  -- Both sides annotate the token at each index; the line marks do not look at the mode.
  refine List.ext_getElem? ?_
  intro i
  simp only [annotate, List.getElem?_mapIdx, List.getElem?_map, Option.map_map]
  refine congrArg (fun f => Option.map f tokens[i]?) ?_
  funext t
  simp only [Function.comp, Token.annotate, Token.prepare_safe]
  rfl

/-- What the annotation of each token leaves, the annotation of a stream leaves. -/
theorem flatMap_annotate {β : Type} {read : Token → List β} {env : Env}
    (h : ∀ index t, read (t.annotate env index) = read t) (tokens : List Token) :
    (annotate env tokens).flatMap read = tokens.flatMap read := by
  have hmap : (annotate env tokens).map read = tokens.map read := by
    apply List.ext_getElem?
    intro i
    simp only [annotate, List.getElem?_map, List.getElem?_mapIdx, Option.map_map]
    apply congrArg (fun f => Option.map f tokens[i]?)
    exact funext (h i)
  rw [List.flatMap_def, List.flatMap_def, hmap]

/-! ## Neutralized values are safe -/

namespace Safety

theorem isSafeValue_neutralize (a : String × String) :
    isSafeValue (neutralize a).1 (neutralize a).2 = true := by
  unfold neutralize
  split
  · assumption
  · exact isSafeValue_empty a.1

end Safety

namespace Token

/-- All values of the attributes of a token are safe. -/
def HasSafeValues (t : Token) : Prop :=
  ∀ a ∈ t.attrs, Safety.isSafeValue a.1 a.2 = true

theorem HasSafeValues.setAttr {t : Token} (h : t.HasSafeValues) {name : String}
    (hname : Safety.isSensitiveAttribute name = false) (value : String) :
    (t.setAttr name value).HasSafeValues := by
  intro a ha
  rcases Attributes.mem_setEntries ha with rfl | ha
  · exact Safety.isSafeValue_of_not_sensitive hname value
  · exact h a ha

theorem hasSafeValues_prepare (t : Token) : (t.prepare true).HasSafeValues := by
  rcases t with ⟨kind, tag, attrs, map, nesting, level, children, content, markup, info, data,
    block, hidden⟩
  intro a ha
  rw [prepare, if_pos rfl] at ha
  rcases List.mem_map.1 ha with ⟨b, _, rfl⟩
  exact Safety.isSafeValue_neutralize b

theorem HasSafeValues.markLines {t : Token} (h : t.HasSafeValues) (env : Env) :
    (t.markLines env).HasSafeValues := by
  unfold Token.markLines
  split
  · exact h
  · exact (h.setAttr (by decide) _).setAttr (by decide) _

theorem children_markLines (t : Token) (env : Env) : (t.markLines env).children = t.children := by
  unfold Token.markLines
  split <;> rfl

theorem children_prepare (safe : Bool) (t : Token) :
    (t.prepare safe).children = prepareInner safe t.children := by
  cases t
  rfl

/-- The annotation only writes to the token itself. -/
theorem children_annotate (env : Env) (index : Nat) (t : Token) :
    (t.annotate env index).children = (t.prepare env.safeMode).children := by
  unfold Token.annotate
  simp only
  split
  · exact children_markLines _ _
  · rfl

theorem HasSafeValues.annotate {env : Env} {index : Nat} {t : Token}
    (h : (t.prepare env.safeMode).HasSafeValues) : (t.annotate env index).HasSafeValues := by
  unfold Token.annotate
  simp only
  split
  · exact (h.markLines env).setAttr (by decide) _
  · exact h

end Token

/-- A token of an annotated stream was annotated itself, or was prepared inside another. -/
theorem mem_deepList_annotate {env : Env} {tokens : List Token} {u : Token}
    (h : u ∈ Token.deepList (annotate env tokens)) :
    (∃ t ∈ tokens, ∃ index, u = t.annotate env index) ∨
      ∃ t ∈ Token.deepList tokens, u = t.prepare env.safeMode := by
  rcases Token.mem_deepList.1 h with ⟨t, ht, hu⟩
  rcases List.mem_mapIdx.1 ht with ⟨i, hi, rfl⟩
  -- The tokens inside are those that the preparation left.
  rw [Token.deep_eq, Token.children_annotate, Token.children_prepare,
    Token.deepInner_prepareInner] at hu
  rcases List.mem_cons.1 hu with rfl | hu
  · exact Or.inl ⟨tokens[i], List.getElem_mem hi, i, rfl⟩
  · rcases List.mem_map.1 hu with ⟨v, hv, rfl⟩
    have hdeep : v ∈ tokens[i].deep := by
      rw [Token.deep_eq]
      exact List.mem_cons_of_mem _ hv
    exact Or.inr ⟨v, Token.mem_deepList.2 ⟨tokens[i], List.getElem_mem hi, hdeep⟩, rfl⟩

/-- In safe mode the annotation leaves only safe values, at every depth. -/
theorem hasSafeValues_annotate (env : Env) (tokens : List Token) :
    ∀ u ∈ Token.deepList (annotate { env with safeMode := true } tokens), u.HasSafeValues := by
  intro u hu
  rcases mem_deepList_annotate hu with ⟨t, _, i, rfl⟩ | ⟨t, _, rfl⟩
  · exact Token.HasSafeValues.annotate (Token.hasSafeValues_prepare t)
  · exact Token.hasSafeValues_prepare t

/-! ## Kinds stay -/

namespace Token

/-- What the annotation leaves of a token as it is. -/
def shape (t : Token) : String × String × Nesting :=
  (t.kind, t.tag, t.nesting)

theorem shape_prepare (safe : Bool) (t : Token) : (t.prepare safe).shape = t.shape := by
  cases t
  rfl

theorem shape_annotate (env : Env) (index : Nat) (t : Token) :
    (t.annotate env index).shape = t.shape := by
  rcases t with ⟨kind, tag, attrs, map, nesting, level, children, content, markup, info, data,
    block, hidden⟩
  unfold annotate markLines
  -- Only the attributes and the extra data are written.
  simp only
  split
  · split <;> rfl
  · rfl

theorem kind_annotate (env : Env) (index : Nat) (t : Token) :
    (t.annotate env index).kind = t.kind :=
  congrArg Prod.fst (shape_annotate env index t)

theorem content_annotate (env : Env) (index : Nat) (t : Token) :
    (t.annotate env index).content = t.content := by
  rcases t with ⟨kind, tag, attrs, map, nesting, level, children, content, markup, info, data,
    block, hidden⟩
  unfold annotate markLines
  simp only
  split
  · split <;> rfl
  · rfl

/-- The annotation leaves the node that was computed for a token beforehand. -/
theorem node_annotate (env : Env) (index : Nat) (t : Token) :
    (t.annotate env index).details.bind TokenMeta.node = t.details.bind TokenMeta.node := by
  rcases t with ⟨kind, tag, attrs, map, nesting, level, children, content, markup, info, details,
    block, hidden⟩
  cases block <;> cases map <;> cases details <;> rfl

theorem node_prepare (safe : Bool) (t : Token) :
    (t.prepare safe).details.bind TokenMeta.node = t.details.bind TokenMeta.node := by
  rcases t with ⟨kind, tag, attrs, map, nesting, level, children, content, markup, info, details,
    block, hidden⟩
  cases details <;> rfl

end Token

/-- The annotation changes no shape, at any depth. -/
theorem shape_of_mem_annotate {env : Env} {tokens : List Token} {u : Token}
    (h : u ∈ Token.deepList (annotate env tokens)) :
    ∃ t ∈ Token.deepList tokens, u.shape = t.shape := by
  rcases mem_deepList_annotate h with ⟨t, ht, i, rfl⟩ | ⟨t, ht, rfl⟩
  · exact ⟨t, Token.mem_deepList_of_mem ht, Token.shape_annotate env i t⟩
  · exact ⟨t, ht, Token.shape_prepare env.safeMode t⟩

theorem kind_of_mem_annotate {env : Env} {tokens : List Token} {u : Token}
    (h : u ∈ Token.deepList (annotate env tokens)) :
    ∃ t ∈ Token.deepList tokens, u.kind = t.kind := by
  rcases shape_of_mem_annotate h with ⟨t, ht, hshape⟩
  exact ⟨t, ht, congrArg Prod.fst hshape⟩

end RenderForest
