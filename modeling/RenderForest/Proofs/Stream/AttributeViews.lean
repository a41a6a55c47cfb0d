import Mathlib
import RenderForest.Compile.Rule
import RenderForest.Proofs.Tree.Entries
import RenderForest.Stream.Codec
/-!
# AttributeViews — the attributes of an annotated token as they are seen elsewhere

The attributes of a token are a list, in which a name may stand more than once.  The annotation
changes the first entry of a name and copies all of them into the extra data; the generic render
sets them one after another.  This file defines:

* `Token.ViewsAgree`, that the copy, the element of the generic render and the token itself have
  the same value under a name;

and shows in `viewsAgree_annotate` that this is so exactly if the first and the last entry of the
name have the same value, and so for all names if none is repeated.
-/

namespace RenderForest

namespace Token

variable {env : Env} {i : Nat} {t : Token}

/-- The copy in the extra data has the value that the token has under a name, and so has the
element that the generic render makes of the token, if it makes one and the name is valid. -/
structure ViewsAgree (t : Token) (name : String) : Prop where
  copy : (t.details.bind fun m => m.attrs.get? name) = t.attr? name
  element : ∀ tag attrs handlers children, t.generic = some (.element tag attrs handlers children) →
    Safety.isValidAttributeName name = true → attrs.get? name = t.attr? name

/-! ## The annotation of a block -/

/-- The attributes of a token that the annotation finds, with unsafe values emptied. -/
def foundAttrs (env : Env) (t : Token) : List (String × String) :=
  if env.safeMode then t.attrs.map neutralize else t.attrs

theorem names_foundAttrs (env : Env) (t : Token) :
    Attributes.names (t.foundAttrs env) = Attributes.names t.attrs := by
  have hname : ∀ a : String × String, (neutralize a).1 = a.1 := by
    intro a
    rw [neutralize]
    split <;> rfl
  rw [foundAttrs]
  split
  · rw [Attributes.names, List.map_map]
    exact List.map_congr_left fun a _ => hname a
  · rfl

/-- The attributes of a block are those that were found, with those of its lines and its index
set. -/
theorem attrs_annotate (hblock : t.block = true) (env : Env) (i : Nat) :
    (t.annotate env i).attrs =
      Attributes.setEntries SourceAttr.tokenIndex (toString i)
        (match t.map with
          | none => t.foundAttrs env
          | some _ =>
            Attributes.setEntries SourceAttr.lineEnd (toString ((t.lineRange env).2 + 1))
              (Attributes.setEntries SourceAttr.lineStart (toString ((t.lineRange env).1 + 1))
                (t.foundAttrs env))) := by
  rcases t with ⟨kind, tag, attrs, map, nesting, level, children, content, markup, info, details,
    block, hidden⟩
  cases hblock
  cases map <;> rfl

/-- The copy in the extra data is made of the attributes of the annotated block. -/
theorem copy_annotate (hblock : t.block = true) (env : Env) (i : Nat) :
    ((t.annotate env i).details.map TokenMeta.attrs) =
      some (Catalog.ofEntries (t.annotate env i).attrs) := by
  rcases t with ⟨kind, tag, attrs, map, nesting, level, children, content, markup, info, details,
    block, hidden⟩
  cases hblock
  rfl

theorem nodup_names_annotate (h : (Attributes.names t.attrs).Nodup) (hblock : t.block = true)
    (env : Env) (i : Nat) : (Attributes.names (t.annotate env i).attrs).Nodup := by
  have hfound : (Attributes.names (t.foundAttrs env)).Nodup := by
    rw [names_foundAttrs]
    exact h
  rw [attrs_annotate hblock]
  refine Attributes.nodup_names_setEntries ?_
  split
  · exact hfound
  · exact Attributes.nodup_names_setEntries (Attributes.nodup_names_setEntries hfound)

/-! ## The three views -/

theorem attr?_copy (hblock : t.block = true) (env : Env) (i : Nat) (name : String) :
    ((t.annotate env i).details.bind fun m => m.attrs.get? name) =
      (t.annotate env i).attrs.reverse.lookup name := by
  rcases Option.map_eq_some_iff.1 (copy_annotate hblock env i) with ⟨m, hm, hattrs⟩
  rw [hm, Option.bind_some, hattrs]
  exact Catalog.lookup_ofEntries _ _

theorem attr?_generic {t : Token} {tag : String} {attrs : Attributes}
    {handlers : List EventHandler} {children : List Node}
    (h : t.generic = some (.element tag attrs handlers children)) {name : String}
    (hname : Safety.isValidAttributeName name = true) :
    attrs.get? name = t.attrs.reverse.lookup name := by
  have hattrs : attrs = t.validAttrs := by
    rcases generic_eq_some h with hnode | hnode | hnode
    · cases hnode
    · cases hnode
    · cases hnode
      rfl
  rw [hattrs]
  exact Attributes.get?_ofListWhere Safety.isValidAttributeName hname t.attrs

/-- What the annotation wrote is found in the token. -/
theorem attr?_annotate_tokenIndex (hblock : t.block = true) (env : Env) (i : Nat) :
    (t.annotate env i).attr? SourceAttr.tokenIndex = some (toString i) := by
  rw [attr?, attrs_annotate hblock, Attributes.lookup_setEntries, if_pos rfl]

theorem attr?_annotate_lines (hblock : t.block = true) {m : Nat × Nat} (hmap : t.map = some m)
    (env : Env) (i : Nat) :
    (t.annotate env i).attr? SourceAttr.lineStart = some (toString ((t.lineRange env).1 + 1)) ∧
      (t.annotate env i).attr? SourceAttr.lineEnd = some (toString ((t.lineRange env).2 + 1)) := by
  constructor <;> rw [attr?, attrs_annotate hblock, hmap]
  · rw [Attributes.lookup_setEntries, if_neg (by decide), Attributes.lookup_setEntries,
      if_neg (by decide), Attributes.lookup_setEntries, if_pos rfl]
  · rw [Attributes.lookup_setEntries, if_neg (by decide), Attributes.lookup_setEntries,
      if_pos rfl]

theorem viewsAgree_annotate_iff (hblock : t.block = true) (env : Env) (i : Nat) (name : String) :
    (t.annotate env i).ViewsAgree name ↔
      (t.annotate env i).attrs.lookup name = (t.annotate env i).attrs.reverse.lookup name := by
  have hcopy := attr?_copy hblock env i name
  constructor
  · intro h
    rw [← hcopy]
    exact h.copy.symm
  · intro h
    refine ⟨hcopy.trans h.symm, ?_⟩
    intro tag attrs handlers children hgeneric hname
    exact (attr?_generic hgeneric hname).trans h.symm

end Token

/-- The values that the annotation wrote are found in a block.  Its views agree under a name
exactly if the first and the last entry of the name have the same value, and under all names if
none was repeated before. -/
theorem viewsAgree_annotate {env : Env} {tokens : List Token} {i : Nat} {t : Token}
    (ht : tokens[i]? = some t) (hblock : t.block = true) :
    ∃ u, (annotate env tokens)[i]? = some u ∧
      u.attr? SourceAttr.tokenIndex = some (toString i) ∧
      (t.map.isSome = true →
        u.attr? SourceAttr.lineStart = some (toString ((t.lineRange env).1 + 1)) ∧
          u.attr? SourceAttr.lineEnd = some (toString ((t.lineRange env).2 + 1))) ∧
      (∀ name, u.ViewsAgree name ↔ u.attrs.lookup name = u.attrs.reverse.lookup name) ∧
      ((t.attrs.map Prod.fst).Nodup → ∀ name, u.ViewsAgree name) := by
  refine ⟨t.annotate env i, ?_, Token.attr?_annotate_tokenIndex hblock env i, ?_,
    Token.viewsAgree_annotate_iff hblock env i, ?_⟩
  · rw [annotate, List.getElem?_mapIdx, ht]
    rfl
  · intro hmap
    rcases Option.isSome_iff_exists.1 hmap with ⟨m, hm⟩
    exact Token.attr?_annotate_lines hblock hm env i
  · intro hnodup name
    rw [Token.viewsAgree_annotate_iff hblock,
      Attributes.lookup_reverse_of_nodup (Token.nodup_names_annotate hnodup hblock env i)]

/-- A paragraph whose index was written twice by its author. -/
def indexedTwice : Token :=
  { kind := "p_open", tag := "p", nesting := .opening, block := true,
    attrs := [(SourceAttr.tokenIndex, "7"), (SourceAttr.tokenIndex, "8")] }

theorem viewsAgree_annotate_indexedTwice :
    ∃ u, (annotate {} [indexedTwice])[0]? = some u ∧
      u.attr? SourceAttr.tokenIndex = some "0" ∧ u.ViewsAgree "title" := by
  have hget : [indexedTwice][0]? = some indexedTwice := rfl
  rcases viewsAgree_annotate hget rfl with ⟨u, hu, hindex, _, hiff, _⟩
  refine ⟨u, hu, hindex, (hiff "title").2 ?_⟩
  cases hu
  decide

/-- The copy and the element have the second index of the author, and the token has its own. -/
theorem not_viewsAgree_annotate :
    ¬ ∀ (text : String) (tokens : List Token), Token.readStream text = .ok tokens →
      ∀ (env : Env) (i : Nat) (u : Token), (annotate env tokens)[i]? = some u → u.block = true →
        ∀ name, u.ViewsAgree name := by
  intro h
  -- The stream is one that is read.
  have hread : Token.readStream
      ("[\x7b\"type\":\"p_open\",\"tag\":\"p\",\"nesting\":1,\"block\":true," ++
        "\"attrs\":[[\"data-token-idx\",\"7\"],[\"data-token-idx\",\"8\"]]\x7d]") =
      .ok [indexedTwice] := by
    cbv
  have hviews := (h _ _ hread {} 0 _ rfl rfl SourceAttr.tokenIndex).copy
  exact absurd hviews (by decide)

end RenderForest
