import RenderForest.Proofs.Compile.SafeMode
import RenderForest.Proofs.Forest.Segments
/-!
# Spelled — forests that are written as streams

A forest of elements, texts, comments and fragments can be written as a flat stream, with a start
and an end around the children of each element and fragment.  This file defines:

* `Node.IsSpellable`, that a tree is made of such nodes, and that the stream tells its elements
  from all else;
* `Spells`, that a stream is written for a forest;
* `Compiler.IsShownAs`, that what tokens show makes a forest wherever they stand;

and shows in `spells_spellAll` that a spellable forest has a stream, and in `compile_of_spells`
that each stream of a forest is compiled to that forest.
-/

namespace RenderForest

/-! ## Forests and their streams -/

namespace Node

mutual

/-- A tree of elements without handlers, texts, comments and fragments.  The tag of an element
neither is missing nor stands for a comment, and its names are valid and all different. -/
def IsSpellable : Node → Prop
  | .element tag attrs handlers children =>
    (tag ≠ "" ∧ tag ≠ commentTag ∧ handlers = []) ∧
      ((∀ a ∈ attrs.entries, Safety.isValidAttributeName a.1 = true) ∧
        (attrs.entries.map Prod.fst).Nodup) ∧ AreSpellable children
  | .text _ => True
  | .comment _ => True
  | .fragment children => AreSpellable children
  | .component _ => False
  | .deferred _ => False

def AreSpellable : List Node → Prop
  | [] => True
  | n :: rest => n.IsSpellable ∧ AreSpellable rest

end

end Node

/-- A token without a rule that is neither inline content nor a block at the top. -/
structure Token.IsBare (t : Token) : Prop where
  rule : RuleTable.standard.find? t.kind = none
  isInline : t.isInline = false
  block : t.block = false

structure Token.IsTextOf (t : Token) (content : String) : Prop where
  kind : t.kind = "text"
  nesting : t.nesting = .selfClosing
  content : t.content = content
  block : t.block = false

structure Token.IsCommentOf (t : Token) (content : String) : Prop where
  bare : t.IsBare
  nesting : t.nesting = .selfClosing
  tag : t.tag = commentTag
  content : t.content = content
  hidden : t.hidden = false

structure Token.Starts (t : Token) (tag : String) (attrs : Attributes) : Prop where
  bare : t.IsBare
  nesting : t.nesting = .opening
  tag : t.tag = tag
  attrs : t.attrs = attrs.entries
  hidden : t.hidden = false

structure Token.StartsFragment (t : Token) : Prop where
  bare : t.IsBare
  nesting : t.nesting = .opening
  hidden : t.hidden = true

structure Token.Ends (t : Token) : Prop where
  bare : t.IsBare
  nesting : t.nesting = .closing

/-- A stream is written for a forest.  What is not said of a token is free, also the kinds of
starts and ends. -/
inductive Spells : List Node → List Token → Prop where
  | nil : Spells [] []
  | text {s : String} {rest : List Node} {t : Token} {tokens : List Token} :
      t.IsTextOf s → Spells rest tokens → Spells (.text s :: rest) (t :: tokens)
  | comment {s : String} {rest : List Node} {t : Token} {tokens : List Token} :
      t.IsCommentOf s → Spells rest tokens → Spells (.comment s :: rest) (t :: tokens)
  | element {tag : String} {attrs : Attributes} {children rest : List Node} {o c : Token}
      {inner tokens : List Token} :
      o.Starts tag attrs → c.Ends → Spells children inner → Spells rest tokens →
        Spells (.element tag attrs [] children :: rest) (o :: inner ++ c :: tokens)
  | fragment {children rest : List Node} {o c : Token} {inner tokens : List Token} :
      o.StartsFragment → c.Ends → Spells children inner → Spells rest tokens →
        Spells (.fragment children :: rest) (o :: inner ++ c :: tokens)

/-! ## Each forest has a stream -/

mutual

/-- A stream for a tree, with the same kind for all starts, ends and comments. -/
def Node.spell (kind : String) : Node → List Token
  | .element tag attrs _ children =>
    { kind, tag, attrs := attrs.entries, nesting := .opening } :: Node.spellAll kind children ++
      [{ kind, tag, nesting := .closing }]
  | .text s => [{ kind := "text", content := s }]
  | .comment s => [{ kind, tag := commentTag, content := s }]
  | .fragment children =>
    { kind, nesting := .opening, hidden := true } :: Node.spellAll kind children ++
      [{ kind, nesting := .closing, hidden := true }]
  | .component _ => []
  | .deferred _ => []

def Node.spellAll (kind : String) : List Node → List Token
  | [] => []
  | n :: rest => n.spell kind ++ Node.spellAll kind rest

end

section Spelling

variable {kind : String} (hrule : RuleTable.standard.find? kind = none) (hkind : kind ≠ "inline")

include hrule hkind

theorem isBare_of_kind {t : Token} (ht : t.kind = kind) (hblock : t.block = false) :
    t.IsBare := by
  refine ⟨ht ▸ hrule, ?_, hblock⟩
  rw [Token.isInline, ht]
  exact beq_eq_false_iff_ne.2 hkind

theorem spells_spellAll : ∀ forest : List Node, Node.AreSpellable forest →
    Spells forest (Node.spellAll kind forest)
  | [], _ => .nil
  | .text s :: rest, h => .text ⟨rfl, rfl, rfl, rfl⟩ (spells_spellAll rest h.2)
  | .comment s :: rest, h =>
    .comment ⟨isBare_of_kind hrule hkind rfl rfl, rfl, rfl, rfl, rfl⟩ (spells_spellAll rest h.2)
  | .element tag attrs handlers children :: rest, h => by
    rcases h with ⟨⟨⟨_, _, rfl⟩, _, hchildren⟩, hrest⟩
    rw [Node.spellAll, Node.spell, List.append_assoc, List.singleton_append]
    exact .element ⟨isBare_of_kind hrule hkind rfl rfl, rfl, rfl, rfl, rfl⟩
      ⟨isBare_of_kind hrule hkind rfl rfl, rfl⟩ (spells_spellAll children hchildren)
      (spells_spellAll rest hrest)
  | .fragment children :: rest, h => by
    rw [Node.spellAll, Node.spell, List.append_assoc, List.singleton_append]
    exact .fragment ⟨isBare_of_kind hrule hkind rfl rfl, rfl, rfl⟩
      ⟨isBare_of_kind hrule hkind rfl rfl, rfl⟩ (spells_spellAll children h.1)
      (spells_spellAll rest h.2)
  | .component _ :: _, h => h.1.elim
  | .deferred _ :: _, h => h.1.elim

end Spelling

/-! ## Annotating a stream -/

namespace Token

variable {t : Token} {s tag : String} {attrs : Attributes}

theorem prepare_false (t : Token) :
    t.prepare false = { t with
      children := prepareInner false t.children, details := some (t.details.getD {}) } := by
  cases t
  rfl

theorem IsBare.prepare (h : t.IsBare) : (t.prepare false).IsBare := by
  rw [prepare_false]
  exact ⟨h.rule, h.isInline, h.block⟩

theorem IsTextOf.prepare (h : t.IsTextOf s) : (t.prepare false).IsTextOf s := by
  rw [prepare_false]
  exact ⟨h.kind, h.nesting, h.content, h.block⟩

theorem IsCommentOf.prepare (h : t.IsCommentOf s) : (t.prepare false).IsCommentOf s := by
  refine ⟨h.bare.prepare, ?_, ?_, ?_, ?_⟩ <;> rw [prepare_false]
  · exact h.nesting
  · exact h.tag
  · exact h.content
  · exact h.hidden

theorem Starts.prepare (h : t.Starts tag attrs) : (t.prepare false).Starts tag attrs := by
  refine ⟨h.bare.prepare, ?_, ?_, ?_, ?_⟩ <;> rw [prepare_false]
  · exact h.nesting
  · exact h.tag
  · exact h.attrs
  · exact h.hidden

theorem StartsFragment.prepare (h : t.StartsFragment) : (t.prepare false).StartsFragment := by
  refine ⟨h.bare.prepare, ?_, ?_⟩ <;> rw [prepare_false]
  · exact h.nesting
  · exact h.hidden

theorem Ends.prepare (h : t.Ends) : (t.prepare false).Ends := by
  refine ⟨h.bare.prepare, ?_⟩
  rw [prepare_false]
  exact h.nesting

end Token

namespace Spells

variable {forest : List Node} {tokens : List Token}

/-- The annotation leaves alone what a stream is written with. -/
theorem prepare (h : Spells forest tokens) : Spells forest (tokens.map (Token.prepare false)) := by
  induction h with
  | nil => exact .nil
  | text ht _ ih => exact .text ht.prepare ih
  | comment ht _ ih => exact .comment ht.prepare ih
  | element ho hc _ _ ihInner ihRest =>
      rw [List.map_append, List.map_cons, List.map_cons]
      exact .element ho.prepare hc.prepare ihInner ihRest
  | fragment ho hc _ _ ihInner ihRest =>
      rw [List.map_append, List.map_cons, List.map_cons]
      exact .fragment ho.prepare hc.prepare ihInner ihRest

theorem block_eq_false (h : Spells forest tokens) : ∀ t ∈ tokens, t.block = false := by
  induction h with
  | nil =>
      intro t ht
      cases ht
  | text ht _ ih => exact List.forall_mem_cons.2 ⟨ht.block, ih⟩
  | comment ht _ ih => exact List.forall_mem_cons.2 ⟨ht.bare.block, ih⟩
  | element ho hc _ _ ihInner ihRest =>
      exact List.forall_mem_append.2 ⟨List.forall_mem_cons.2 ⟨ho.bare.block, ihInner⟩,
        List.forall_mem_cons.2 ⟨hc.bare.block, ihRest⟩⟩
  | fragment ho hc _ _ ihInner ihRest =>
      exact List.forall_mem_append.2 ⟨List.forall_mem_cons.2 ⟨ho.bare.block, ihInner⟩,
        List.forall_mem_cons.2 ⟨hc.bare.block, ihRest⟩⟩

end Spells

/-- Without safe mode, and without blocks at the top, each token is annotated by itself. -/
theorem annotate_eq_map {env : Env} (henv : env.safeMode = false) {tokens : List Token}
    (h : ∀ t ∈ tokens, t.block = false) :
    annotate env tokens = tokens.map (Token.prepare false) := by
  refine List.ext_getElem? ?_
  intro i
  rw [annotate, List.getElem?_mapIdx, List.getElem?_map]
  cases ht : tokens[i]? with
  | none => rfl
  | some t =>
      -- Only a block is told its lines and its index.
      have hblock : (t.prepare false).block = false := by
        rw [Token.prepare_false]
        exact h t (List.mem_of_getElem? ht)
      rw [Option.map_some, Option.map_some, Token.annotate, henv]
      simp [hblock]

/-! ## What tokens show wherever they stand -/

namespace Compiler

open Forest

variable {c : Compiler} {env : Env} {a b : List Token} {f g : List Node}

/-- A token shows the same wherever it stands, and leaves the workspace alone. -/
def ShowsAlways (c : Compiler) (env : Env) (t : Token) (s : Shown) : Prop :=
  s.nesting = t.nesting ∧ ∀ stream i, c.shown env t stream i = pure s.output

theorem shownList_of_showsAlways {shown : List Shown}
    (h : List.Forall₂ (c.ShowsAlways env) a shown) (stream : List Token) (i : Nat) :
    c.shownList env a stream i = pure shown := by
  induction h generalizing i with
  | nil => rw [shownList]
  | @cons t s _ _ ht _ ih =>
      rcases s with ⟨output, nesting⟩
      rcases ht with ⟨rfl, hout⟩
      rw [shownList, hout, ih]
      rfl

/-- The tokens make a forest of their own: they end what they start, and what they show makes
that forest. -/
def IsShownAs (c : Compiler) (env : Env) (tokens : List Token) (forest : List Node) : Prop :=
  ∃ shown, List.Forall₂ (c.ShowsAlways env) tokens shown ∧ TakesAll shown ∧
    Nesting.IsBalanced (shown.map Shown.nesting) ∧ build shown = forest

theorem compileInner_of_isShownAs (h : c.IsShownAs env a f) (w : Workspace) :
    c.compileInner env a w = (f, w) := by
  rcases h with ⟨shown, hshown, _, _, rfl⟩
  rw [compileInner, innerForest, shownList_of_showsAlways hshown]
  rfl

theorem isShownAs_nil : c.IsShownAs env [] [] := by
  refine ⟨[], .nil, ?_, Nesting.isBalanced_nil, rfl⟩
  intro k s hs
  cases hs

theorem IsShownAs.append (ha : c.IsShownAs env a f) (hb : c.IsShownAs env b g) :
    c.IsShownAs env (a ++ b) (f ++ g) := by
  rcases ha with ⟨shown, hshown, htakes, hbalanced, rfl⟩
  rcases hb with ⟨shown', hshown', htakes', hbalanced', rfl⟩
  refine ⟨shown ++ shown', List.rel_append hshown hshown', htakes.append htakes', ?_, ?_⟩
  · rw [List.map_append]
    exact hbalanced.append hbalanced'
  · exact build_append (openTokens_of_isBalanced hbalanced) shown'

theorem isShownAs_alone {t : Token} {n : Node} (hnesting : t.nesting = .selfClosing)
    (ht : ∀ stream i, c.shown env t stream i = pure (some (n, none))) :
    c.IsShownAs env [t] [n] := by
  refine ⟨[⟨some (n, none), .selfClosing⟩], .cons ⟨hnesting.symm, ht⟩ .nil, ?_,
    Nesting.isBalanced_selfClosing, build_alone n⟩
  exact takesAll_of_ne (by simp)

theorem IsShownAs.group (h : c.IsShownAs env a f) {n : Node} (hn : n.isContainer = true)
    {o e : Token} (ho : o.nesting = .opening) (he : e.nesting = .closing)
    (hout : ∀ stream i, c.shown env o stream i = pure (some (n, none)))
    (hend : ∀ stream i, c.shown env e stream i = pure none) :
    c.IsShownAs env (o :: a ++ [e]) [n.append f] := by
  rcases h with ⟨shown, hshown, htakes, hbalanced, rfl⟩
  refine ⟨⟨some (n, none), .opening⟩ :: shown ++ [⟨none, .closing⟩], ?_, htakes.group hn, ?_,
    build_group hn htakes hbalanced⟩
  · exact List.rel_append (.cons ⟨ho.symm, hout⟩ hshown) (.cons ⟨he.symm, hend⟩ .nil)
  · rw [List.map_append, List.map_cons]
    exact hbalanced.wrap

/-! ## Streams of forests -/

section Shown

variable {t : Token} {s tag : String} {attrs : Attributes} (hc : c.rules = RuleTable.standard)

include hc

theorem shown_of_isBare (ht : t.IsBare) (stream : List Token) (i : Nat) :
    c.shown env t stream i = pure (t.generic.map fun n => (n, none)) :=
  shown_generic env ht.isInline (hc ▸ ht.rule) stream i

theorem shown_of_isTextOf (ht : t.IsTextOf s) (stream : List Token) (i : Nat) :
    c.shown env t stream i = pure (some (.text s, none)) := by
  have hinline : t.isInline = false := by
    rw [Token.isInline, ht.kind]
    decide
  have hrule : c.rules.find? t.kind = some Rule.text := by
    rw [hc, ht.kind]
    rfl
  have hshows : Rule.text.Shows c.options t (some (.text s)) := by
    intro stream index env
    rw [← ht.content]
    rfl
  exact shown_of_shows env hinline hrule hshows stream i

theorem shown_of_isCommentOf (ht : t.IsCommentOf s) (stream : List Token) (i : Nat) :
    c.shown env t stream i = pure (some (.comment s, none)) := by
  have hgeneric : t.generic = some (.comment s) := by
    rw [Token.generic, ht.nesting, ht.hidden, ht.tag, ht.content]
    rfl
  rw [shown_of_isBare hc ht.bare, hgeneric]
  rfl

theorem shown_of_starts (ht : t.Starts tag attrs) (htag : tag ≠ "" ∧ tag ≠ commentTag)
    (hvalid : ∀ a ∈ attrs.entries, Safety.isValidAttributeName a.1 = true)
    (hnodup : (attrs.entries.map Prod.fst).Nodup) (stream : List Token) (i : Nat) :
    c.shown env t stream i = pure (some (.plain tag attrs [], none)) := by
  have hnames : (Attributes.names (Attributes.empty.entries ++ attrs.entries)).Nodup := hnodup
  have hattrs : t.validAttrs = attrs := by
    rw [Token.validAttrs, Attributes.ofListWhere, ht.attrs, List.filter_eq_self.2 hvalid]
    exact Attributes.foldl_set_of_nodup hnames
  have hgeneric : t.generic = some (.plain tag attrs []) := by
    rw [Token.generic, ht.nesting, ht.hidden, ht.tag, hattrs]
    simp [htag.1, htag.2]
  rw [shown_of_isBare hc ht.bare, hgeneric]
  rfl

theorem shown_of_startsFragment (ht : t.StartsFragment) (stream : List Token) (i : Nat) :
    c.shown env t stream i = pure (some (.empty, none)) := by
  have hgeneric : t.generic = some .empty := by
    rw [Token.generic, ht.nesting, ht.hidden]
    rfl
  rw [shown_of_isBare hc ht.bare, hgeneric]
  rfl

theorem shown_of_ends (ht : t.Ends) (stream : List Token) (i : Nat) :
    c.shown env t stream i = pure none := by
  have hgeneric : t.generic = none := by
    rw [Token.generic, ht.nesting]
  rw [shown_of_isBare hc ht.bare, hgeneric]
  rfl

/-- The tokens that are written for a forest make that forest. -/
theorem isShownAs_of_spells {forest : List Node} {tokens : List Token} (h : Spells forest tokens)
    (hforest : Node.AreSpellable forest) : c.IsShownAs env tokens forest := by
  induction h with
  | nil => exact isShownAs_nil
  | text ht _ ih =>
      exact (isShownAs_alone ht.nesting (shown_of_isTextOf hc ht)).append (ih hforest.2)
  | comment ht _ ih =>
      exact (isShownAs_alone ht.nesting (shown_of_isCommentOf hc ht)).append (ih hforest.2)
  | @element tag attrs children rest o e inner tokens ho he _ _ ihInner ihRest =>
      rcases hforest with ⟨⟨htag, ⟨hvalid, hnodup⟩, hchildren⟩, hrest⟩
      -- The element takes what its children make, and the rest stands behind it.
      have hgroup := (ihInner hchildren).group rfl ho.nesting he.nesting
        (shown_of_starts hc ho ⟨htag.1, htag.2.1⟩ hvalid hnodup) (shown_of_ends hc he)
      have happend := hgroup.append (ihRest hrest)
      rw [List.append_assoc, List.singleton_append] at happend
      exact happend
  | @fragment children rest o e inner tokens ho he _ _ ihInner ihRest =>
      rcases hforest with ⟨hchildren, hrest⟩
      have hgroup := (ihInner hchildren).group rfl ho.nesting he.nesting
        (shown_of_startsFragment hc ho) (shown_of_ends hc he)
      have happend := hgroup.append (ihRest hrest)
      rw [List.append_assoc, List.singleton_append] at happend
      exact happend

end Shown

/-- A forest of elements, texts, comments and fragments can be written as a stream, and every
stream that is written for it is compiled to that very forest. -/
theorem compile_of_spells {forest : List Node} (hforest : Node.AreSpellable forest) :
    (∃ tokens, Spells forest tokens) ∧
      ∀ tokens, Spells forest tokens → ∀ (options : Options) (env : Env) (w : Workspace),
        env.safeMode = false → ({ options } : Compiler).compile env tokens w = (forest, w) := by
  have hrule : RuleTable.standard.find? "group" = none := rfl
  refine ⟨⟨_, spells_spellAll hrule (by decide) forest hforest⟩, ?_⟩
  intro tokens h options env w henv
  rw [compile, annotate_eq_map henv h.block_eq_false]
  exact compileInner_of_isShownAs (isShownAs_of_spells rfl h.prepare hforest) w

/-- A forest with an element inside a fragment, and two names on it. -/
def spelledForest : List Node :=
  [.fragment [.plain "a" ⟨[("title", "1"), ("lang", "2")]⟩ [.text "x"], .comment "y"], .text "z"]

theorem compile_of_spells_spelledForest :
    Node.AreSpellable spelledForest ∧
      ({} : Compiler).compile {} (Node.spellAll "group" spelledForest) {} =
        (spelledForest, {}) := by
  have hforest : Node.AreSpellable spelledForest :=
    ⟨⟨⟨⟨by decide, by decide, rfl⟩, ⟨by decide, by decide⟩, trivial, trivial⟩, trivial, trivial⟩,
      trivial, trivial⟩
  exact ⟨hforest, (compile_of_spells hforest).2 _
    (spells_spellAll rfl (by decide) spelledForest hforest) {} {} {} rfl⟩

end Compiler
end RenderForest
