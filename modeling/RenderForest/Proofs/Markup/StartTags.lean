import RenderForest.Markup.Policy
import RenderForest.Proofs.Tree.Elements
/-!
# StartTags — the elements of raw markup are its start tags

However tags are nested, and whether they are closed or not, every start tag that is read makes
one element, and nothing else does.  This file defines:

* `Markup.startTags`, the start tags of a text;
* `Markup.Dom.Every P`, that each element of a tree has a name and attributes with the property
  `P`, and `Markup.Builder.Every P`, the same of what was read so far;

and shows in `everyIn_trustedNodes` that the elements of trusted markup are the start tags of the
text.
-/

namespace RenderForest
namespace Markup

/-! ## Start tags -/

/-- The element that a tag starts, if any. -/
def Tag.starts : Tag → List (String × RawAttributes)
  | .start name attrs _ => [(name, attrs)]
  | _ => []

/-- The start tags of a text, in order. -/
def startTags (s : List Char) : List (String × RawAttributes) :=
  match s with
  | [] => []
  | c :: rest =>
    if c == '<' then
      match _h : readTag rest with
      | (t, after) => t.starts ++ startTags after
    else startTags rest
termination_by s.length
decreasing_by
  · have := readTag_length rest
    rw [_h] at this
    simp at this ⊢
    omega
  · simp

theorem startTags_nil : startTags [] = [] := by
  rw [startTags]

theorem startTags_lt (rest : List Char) :
    startTags ('<' :: rest) = (readTag rest).1.starts ++ startTags (readTag rest).2 := by
  rw [startTags, if_pos (by decide)]

theorem startTags_cons {c : Char} (hc : c ≠ '<') (rest : List Char) :
    startTags (c :: rest) = startTags rest := by
  rw [startTags, if_neg (by simpa using hc)]

/-- Texts between tags are passed over. -/
theorem startTags_append {s : List Char} (h : ∀ c ∈ s, c ≠ '<') (rest : List Char) :
    startTags (s ++ rest) = startTags rest := by
  induction s with
  | nil => rfl
  | cons c s ih =>
      rw [List.cons_append, startTags_cons (h c (List.mem_cons_self ..))]
      exact ih fun d hd => h d (List.mem_cons_of_mem _ hd)

theorem startTags_dropWhile (s : List Char) :
    startTags (s.dropWhile (· != '<')) = startTags s := by
  -- What is dropped is a text without a tag.
  have htext : ∀ c ∈ s.takeWhile (· != '<'), c ≠ '<' := by
    intro c hc
    simpa using List.all_eq_true.1 List.all_takeWhile c hc
  have happend := startTags_append htext (s.dropWhile (· != '<'))
  rw [List.takeWhile_append_dropWhile] at happend
  exact happend.symm

/-! ## Elements -/

variable {P : String → RawAttributes → Prop}

mutual

/-- Each element of a tree has the property. -/
def Dom.Every (P : String → RawAttributes → Prop) : Dom → Prop
  | .text _ => True
  | .comment _ => True
  | .element name attrs _ children => P name attrs ∧ EveryIn P children

def EveryIn (P : String → RawAttributes → Prop) : List Dom → Prop
  | [] => True
  | d :: rest => d.Every P ∧ EveryIn P rest

end

theorem everyIn_iff {ds : List Dom} : EveryIn P ds ↔ ∀ d ∈ ds, d.Every P := by
  induction ds with
  | nil => simp [EveryIn]
  | cons d rest ih => simp [EveryIn, ih]

theorem everyIn_cons {d : Dom} {rest : List Dom} :
    EveryIn P (d :: rest) ↔ d.Every P ∧ EveryIn P rest := Iff.rfl

theorem everyIn_reverse {ds : List Dom} : EveryIn P ds.reverse ↔ EveryIn P ds := by
  simp only [everyIn_iff, List.mem_reverse]

namespace Builder

/-- Each element that is open or complete has the property. -/
def Every (P : String → RawAttributes → Prop) (b : Builder) : Prop :=
  (∀ e ∈ b.stack, P e.name e.attrs ∧ EveryIn P e.children) ∧ EveryIn P b.roots

theorem every_add (b : Builder) (d : Dom) : (b.add d).Every P ↔ b.Every P ∧ d.Every P := by
  rcases b with ⟨stack, roots⟩
  cases stack with
  | nil =>
      simp only [add, Every, everyIn_cons]
      tauto
  | cons top below =>
      simp only [add, Every, List.forall_mem_cons, everyIn_cons]
      tauto

theorem every_close (b : Builder) (source : OpenElement → String) :
    (b.close source).Every P ↔ b.Every P := by
  rcases b with ⟨stack, roots⟩
  cases stack with
  | nil => exact Iff.rfl
  | cons top below =>
      -- The element leaves the stack and is added below the next one, or as a root.
      simp only [close]
      rw [every_add]
      simp only [Every, List.forall_mem_cons, Dom.Every, everyIn_reverse]
      tauto

/-- A tag brings the element that it starts. -/
theorem every_tag (b : Builder) (tail rest : List Char) (t : Tag) :
    (b.tag tail rest t).Every P ↔ b.Every P ∧ ∀ x ∈ t.starts, P x.1 x.2 := by
  cases t with
  | start name attrs closed =>
      cases closed with
      | true => simp [tag, Tag.starts, every_add, Dom.Every, EveryIn]
      | false =>
          simp [tag, Tag.starts, Every, EveryIn]
          tauto
  | stop name =>
      -- An end tag closes the innermost element if it has its name, and does nothing otherwise.
      simp only [tag, Tag.starts, List.not_mem_nil, false_implies, implies_true, and_true]
      split
      · exact Iff.rfl
      · split
        · exact every_close _ _
        · exact Iff.rfl
  | comment raw => simp [tag, Tag.starts, every_add, Dom.Every]
  | declaration n => simp [tag, Tag.starts]
  | unreadable => simp [tag, Tag.starts]

theorem length_stack_close (b : Builder) (source : OpenElement → String) :
    (b.close source).stack.length = b.stack.length - 1 := by
  rcases b with ⟨stack, roots⟩
  cases stack with
  | nil => rfl
  | cons top below => cases below <;> rfl

/-- Closing as many elements as are open leaves none. -/
theorem closeAll (es : List OpenElement) :
    ∀ b : Builder, b.stack.length = es.length →
      (es.foldl (fun b _ => b.close OpenElement.opening) b).stack = [] ∧
        ((es.foldl (fun b _ => b.close OpenElement.opening) b).Every P ↔ b.Every P) := by
  -- The builder changes with each step, and only the number of its open elements is followed.
  induction es with
  | nil =>
      intro b hb
      exact ⟨List.eq_nil_of_length_eq_zero hb, Iff.rfl⟩
  | cons e es ih =>
      intro b hb
      have hlength : (b.close OpenElement.opening).stack.length = es.length := by
        rw [length_stack_close, hb]
        rfl
      rcases ih _ hlength with ⟨hstack, hevery⟩
      exact ⟨hstack, hevery.trans (every_close b _)⟩

theorem everyIn_finish (b : Builder) : EveryIn P b.finish ↔ b.Every P := by
  rcases closeAll (P := P) b.stack b rfl with ⟨hstack, hevery⟩
  rw [finish, everyIn_reverse, ← hevery, Every, hstack]
  simp

end Builder

/-- Reading adds the elements of the start tags. -/
theorem every_readFrom (b : Builder) (s : List Char) :
    (readFrom b s).Every P ↔ b.Every P ∧ ∀ x ∈ startTags s, P x.1 x.2 := by
  -- Reading goes from tag to tag, and start tags are collected from character to character.
  fun_induction readFrom b s with
  | case1 b => simp [startTags_nil]
  | case2 b c rest hc t after htag b' hleft ih =>
      rw [eq_of_beq hc, startTags_lt, htag, ih, Builder.every_tag]
      simp only [List.mem_append, or_imp, forall_and, and_assoc]
  | case3 b c rest hc t after htag b' hleft text ih =>
      rw [eq_of_beq hc, startTags_lt, htag, ih, Builder.every_add, Builder.every_tag]
      simp only [startTags_dropWhile, Dom.Every, List.mem_append, or_imp, forall_and, and_true,
        and_assoc]
  | case4 b c rest hc ih =>
      rw [ih, Builder.every_add, startTags_dropWhile, startTags_cons (by simpa using hc)]
      simp [Dom.Every]

theorem everyIn_read (raw : String) :
    EveryIn P (read raw) ↔ ∀ x ∈ startTags raw.toList, P x.1 x.2 := by
  rw [read, Builder.everyIn_finish, every_readFrom]
  simp [Builder.Every, EveryIn]

/-! ## Trusted markup -/

section Trusted

variable {Q : String → Attributes → Prop}

mutual

theorem every_toTrusted :
    ∀ d : Dom, d.toTrusted.Every Q ↔ d.Every fun name attrs => Q name (attrs.toAttributes .trusted)
  | .text _ => Iff.rfl
  | .comment _ => Iff.rfl
  | .element name attrs source children => by
    rw [Dom.toTrusted, Node.every_plain, Dom.Every, everyIn_listToTrusted children]

theorem everyIn_listToTrusted :
    ∀ ds : List Dom,
      Node.EveryIn Q (Dom.listToTrusted ds) ↔
        EveryIn (fun name attrs => Q name (attrs.toAttributes .trusted)) ds
  | [] => Iff.rfl
  | d :: rest => by
    rw [Dom.listToTrusted, Node.everyIn_cons, EveryIn, every_toTrusted d]
    rw [everyIn_listToTrusted rest]

end

/-- The elements of trusted markup are the start tags of the text. -/
theorem everyIn_trustedNodes (raw : String) :
    Node.EveryIn Q (trustedNodes raw) ↔
      ∀ x ∈ startTags raw.toList, Q x.1 (x.2.toAttributes .trusted) := by
  rw [trustedNodes, everyIn_listToTrusted, everyIn_read]

end Trusted

end Markup
end RenderForest
