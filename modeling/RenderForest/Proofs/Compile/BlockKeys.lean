import RenderForest.Proofs.Compile.Overrides
import RenderForest.Proofs.Compile.BuiltIn
import RenderForest.Proofs.Tree.Blocks
/-!
# BlockKeys — no two rich blocks of a process have one key

Keys are counted up, but a key starts with the language of its block, which is free text and may
end like a key itself.  This file defines:

* `keyNumber`, the number at the end of a key;
* `Draws`, the keys that were drawn while the counter went from one number to another;
* `Token.brought`, the keys of the nodes that were computed for a token beforehand;
* `Rule.DrawsKeys`, that a rule draws a key for each block that it makes;

and shows in `draws_renderFence` that the render of a fence draws a key for its block, and in
`RuleTable.drawsKeys_standard` that the built-in rules do.
-/

namespace RenderForest

/-! ## The number of a key -/

/-- The number at the end of a key: the digits behind its last dash. -/
def keyNumber (key : String) : Nat :=
  Nat.ofDigitChars 10 (key.toList.reverse.takeWhile (· != '-')).reverse 0

/-- The number of a key can be read off it, whatever its language is: no digit is a dash. -/
theorem keyNumber_keyText (language : String) (n : Nat) : keyNumber (keyText language n) = n := by
  have hsplit : (keyText language n).toList.reverse =
      (Nat.toDigits 10 n).reverse ++
        '-' :: (if language.isEmpty then "code" else language).toList.reverse := by
    simp [keyText]
  have hdigits : ∀ c ∈ (Nat.toDigits 10 n).reverse, (c != '-') = true := by
    intro c hc
    have hdigit : c.isDigit = true :=
      Nat.isDigit_of_mem_toDigits (by decide) (by decide) (List.mem_reverse.1 hc)
    apply bne_iff_ne.2
    rintro rfl
    cases hdigit
  rw [keyNumber, hsplit, List.takeWhile_append_of_pos hdigits,
    List.takeWhile_cons_of_neg (by simp), List.append_nil, List.reverse_reverse]
  exact Nat.ofDigitChars_ten_toDigits

/-- Keys with different numbers are different. -/
theorem eq_of_keyText_eq {language language' : String} {n m : Nat}
    (h : keyText language n = keyText language' m) : n = m :=
  calc n
    _ = keyNumber (keyText language n) := (keyNumber_keyText language n).symm
    _ = keyNumber (keyText language' m) := congrArg keyNumber h
    _ = m := keyNumber_keyText language' m

/-! ## Drawn keys -/

/-- Keys that were drawn while the counter went from one number to another. -/
structure Draws (n m : Nat) (keys : List String) : Prop where
  le : n ≤ m
  nodup : keys.Nodup
  drawn : ∀ key ∈ keys, ∃ language i, n ≤ i ∧ i < m ∧ key = keyText language i

namespace Draws

variable {n m k : Nat} {as bs : List String}

theorem nil (h : n ≤ m) : Draws n m [] where
  le := h
  nodup := List.nodup_nil
  drawn := List.forall_mem_nil _

/-- One key. -/
theorem one (language : String) (n : Nat) : Draws n (n + 1) [keyText language n] where
  le := Nat.le_succ n
  nodup := List.nodup_singleton _
  drawn := by
    intro key hkey
    exact ⟨language, n, Nat.le_refl n, Nat.lt_succ_self n, List.mem_singleton.1 hkey⟩

/-- Keys that are drawn later have higher numbers. -/
theorem append (ha : Draws n m as) (hb : Draws m k bs) : Draws n k (as ++ bs) where
  le := ha.le.trans hb.le
  nodup := by
    apply List.nodup_append.2
    refine ⟨ha.nodup, hb.nodup, ?_⟩
    rintro key hkey _ hkey' rfl
    rcases ha.drawn key hkey with ⟨language, i, _, hi, rfl⟩
    rcases hb.drawn _ hkey' with ⟨language', j, hj, _, heq⟩
    have hij : i = j := eq_of_keyText_eq heq
    omega
  drawn := by
    intro key hkey
    rcases List.mem_append.1 hkey with hkey | hkey
    · rcases ha.drawn key hkey with ⟨language, i, hn, hm, heq⟩
      exact ⟨language, i, hn, hm.trans_le hb.le, heq⟩
    · rcases hb.drawn key hkey with ⟨language, i, hm, hk, heq⟩
      exact ⟨language, i, ha.le.trans hm, hk, heq⟩

end Draws

/-! ## Markup -/

namespace Markup

mutual

theorem keys_toTrusted : ∀ d : Dom, d.toTrusted.keys = []
  | .text _ => rfl
  | .comment _ => rfl
  | .element name attrs source children => by
    rw [Dom.toTrusted, Node.keys_plain, keysAll_listToTrusted children]

theorem keysAll_listToTrusted : ∀ ds : List Dom, Node.keysAll (Dom.listToTrusted ds) = []
  | [] => rfl
  | d :: rest => by
    rw [Dom.listToTrusted, Node.keysAll_cons, keys_toTrusted d, keysAll_listToTrusted rest]
    rfl

end

mutual

theorem keysAll_toNodes (policy : Policy) : ∀ d : Dom, Node.keysAll (d.toNodes policy) = []
  | .text _ => rfl
  | .comment _ => rfl
  | .element name attrs source children => by
    rw [Dom.toNodes]
    -- A dangerous element, a drawing and any other element.
    split
    · rfl
    · split
      · exact keysAll_listToTrusted _
      · rw [Node.keysAll_cons, Node.keys_plain, keysAll_listToNodes policy children]
        rfl

theorem keysAll_listToNodes (policy : Policy) :
    ∀ ds : List Dom, Node.keysAll (Dom.listToNodes policy ds) = []
  | [] => rfl
  | d :: rest => by
    rw [Dom.listToNodes, Node.keysAll_append, keysAll_toNodes policy d,
      keysAll_listToNodes policy rest]
    rfl

end

/-- Raw markup makes no rich blocks. -/
theorem keysAll_parse (raw : String) (policy : Policy) : Node.keysAll (parse raw policy) = [] :=
  keysAll_listToNodes policy (read raw)

end Markup

/-! ## Fenced blocks -/

/-- The default render makes no rich blocks. -/
theorem keys_fallbackNode (o : Options) (t : Token) : (fallbackNode o t).keys = [] := by
  have hframe : ∀ f attrs b content, Node.keysAll content = [] →
      (DefaultFence.frame f attrs b content).keys = [] := by
    intro f attrs b content hcontent
    simp [DefaultFence.frame, hcontent]
  rw [fallbackNode, DefaultFence.render]
  split
  · exact hframe _ _ _ _ rfl
  · rename_i markup _
    have hparse := Markup.keysAll_parse markup .trusted
    dsimp only
    split
    · rw [Node.keys_ofForest, hparse]
    · exact hframe _ _ _ _ hparse

/-- A block that is taken over is a rich block under the next key. -/
theorem exists_block_of_not_leavesAlone {o : Options} {t : Token} {resolve : Resolver}
    (hresolver : o.resolver = some resolve) (halone : ¬ LeavesAlone (resolve (CodeBlock.ofToken t)))
    (n : Nat) :
    ∃ block, renderFence o t n = (block, n + 1) ∧ block.blocks = [block] ∧
      block.key? = some (keyText (CodeBlock.ofToken t).language n) := by
  rcases exists_found halone with ⟨found, hfound, hnamed⟩
  rcases isTakenOver_overrideNode (o := o) (t := t) hnamed n with ⟨node, hnode, htaken⟩
  have hrender : renderFence o t n = (node, n + 1) := by
    rw [renderFence_of_found hresolver hfound, hnode]
    rfl
  -- A component, a descriptor and a deferred block alike have the next key.
  cases htaken <;> exact ⟨_, hrender, rfl, rfl⟩

/-- A block that is taken over has the key that is drawn for it, and no other block has any. -/
theorem draws_renderFence (o : Options) (t : Token) (n : Nat) :
    Draws n (renderFence o t n).2 (renderFence o t n).1.keys := by
  have hdefault : renderFence o t = pure (fallbackNode o t) →
      Draws n (renderFence o t n).2 (renderFence o t n).1.keys := by
    intro h
    rw [h]
    change Draws n n (fallbackNode o t).keys
    rw [keys_fallbackNode]
    exact .nil (Nat.le_refl n)
  cases hresolver : o.resolver with
  | none => exact hdefault (renderFence_of_resolver_eq_none hresolver)
  | some resolve =>
      by_cases halone : LeavesAlone (resolve (CodeBlock.ofToken t))
      · exact hdefault (renderFence_of_leavesAlone hresolver halone)
      · rcases exists_block_of_not_leavesAlone hresolver halone n with
          ⟨block, hrender, hself, hkey⟩
        have hkeys : block.keys = [keyText (CodeBlock.ofToken t).language n] := by
          rw [Node.keys, hself, List.filterMap_cons_some hkey, List.filterMap_nil]
        rw [hrender, hkeys]
        exact .one _ n

/-- Several fences draw different keys, each for its own block. -/
theorem draws_mapM_renderFence (renders : List (Options × Token)) (n : Nat) :
    Draws n (renders.mapM (fun r => renderFence r.1 r.2) n).2
      (Node.keysAll (renders.mapM (fun r => renderFence r.1 r.2) n).1) := by
  induction renders generalizing n with
  | nil => exact .nil (Nat.le_refl n)
  | cons r renders ih =>
      rw [List.mapM_cons]
      exact (draws_renderFence r.1 r.2 n).append (ih _)

/-! ## Rules -/

mutual

/-- The keys of the nodes that were computed beforehand for the tokens inside a token, and for the
token itself. -/
def Token.broughtDeep : Token → List String
  | ⟨_, _, _, _, _, _, children, _, _, _, data, _, _⟩ =>
    Token.broughtInside children ++ Node.keysAll (data.bind TokenMeta.node).toList

def Token.broughtInside : Option (List Token) → List String
  | none => []
  | some ts => Token.broughtAll ts

def Token.broughtAll : List Token → List String
  | [] => []
  | t :: rest => t.broughtDeep ++ Token.broughtAll rest

end

/-- The keys of the node that was computed beforehand for a token. -/
def Token.brought (t : Token) : List String :=
  Node.keysAll (t.details.bind TokenMeta.node).toList

theorem Token.broughtDeep_eq (t : Token) :
    t.broughtDeep = Token.broughtInside t.children ++ t.brought := by
  cases t
  rfl

namespace RuleOutput

def keys : RuleOutput → List String
  | .node n => n.keys
  | .nodes ns => Node.keysAll ns
  | .markup _ => []
  | .nested n parent => n.keys ++ parent.keys
  | .inner wrap => (wrap []).keys
  | .suppress => []

/-- A rule that wraps the nodes inside does not repeat their blocks. -/
def WrapsOnce : RuleOutput → Prop
  | .inner wrap => ∀ nodes, (wrap nodes).keys.Subperm ((wrap []).keys ++ Node.keysAll nodes)
  | _ => True

end RuleOutput

/-- A rule draws a key for each block that it makes, and takes over those that a token brings. -/
def Rule.DrawsKeys (r : Rule) : Prop :=
  ∀ (input : RuleInput) (n : Nat), (r input n).1.WrapsOnce ∧
    ∃ drawn, Draws n (r input n).2 drawn ∧
      (r input n).1.keys.Subperm (input.token.brought ++ drawn)

namespace Rule

/-- A rule that makes no blocks need not draw keys. -/
theorem drawsKeys_ofToken {render : Token → RuleOutput}
    (h : ∀ t, (render t).WrapsOnce ∧ (render t).keys.Subperm t.brought) :
    (Rule.ofToken render).DrawsKeys := by
  intro input n
  rcases h input.token with ⟨honce, hkeys⟩
  refine ⟨honce, [], .nil (Nat.le_refl n), ?_⟩
  rw [List.append_nil]
  exact hkeys

theorem drawsKeys_softBreak : softBreak.DrawsKeys := by
  intro input n
  cases hbreaks : input.options.breaks with
  | true =>
      simp only [softBreak, hbreaks]
      exact ⟨trivial, [], .nil (Nat.le_refl n), List.nil_subperm⟩
  | false =>
      simp only [softBreak, hbreaks]
      exact ⟨trivial, [], .nil (Nat.le_refl n), List.nil_subperm⟩

theorem drawsKeys_fence : fence.DrawsKeys := by
  intro input n
  refine ⟨trivial, _, draws_renderFence input.options input.token n, ?_⟩
  exact (List.sublist_append_right input.token.brought _).subperm

/-- Raw markup shows the node that was computed beforehand, or makes no blocks. -/
theorem drawsKeys_rawMarkup : rawMarkup.DrawsKeys := by
  apply drawsKeys_ofToken
  intro t
  split
  · rename_i n hn
    have hbrought : t.brought = n.keys := by
      rw [Token.brought, hn]
      exact List.append_nil _
    rw [hbrought]
    exact ⟨trivial, List.Subperm.refl _⟩
  · exact ⟨trivial, List.nil_subperm⟩

end Rule

/-- The built-in rules draw a key for each block that they make. -/
theorem RuleTable.drawsKeys_standard : ∀ e ∈ RuleTable.standard, e.2.DrawsKeys := by
  have hplain : ∀ render : Token → Node, (∀ t, (render t).keys = []) →
      (Rule.ofToken fun t => .node (render t)).DrawsKeys := by
    intro render hrender
    apply Rule.drawsKeys_ofToken
    intro t
    rw [RuleOutput.keys, hrender]
    exact ⟨trivial, List.nil_subperm⟩
  refine forall_mem_standard fun kind r hr => ?_
  cases hr with
  | softBreak => exact Rule.drawsKeys_softBreak
  | fence => exact Rule.drawsKeys_fence
  | rawMarkup => exact Rule.drawsKeys_rawMarkup
  -- All other rules make elements and texts.
  | _ => exact hplain _ fun t => rfl

end RenderForest
