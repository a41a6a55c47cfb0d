import RenderForest.Proofs.Xml.WrittenText
import RenderForest.Xml.Document
/-!
# ReadTrees — what the trees of a document are made of

This file defines:

* `Xml.IsName`, a text of name characters that is not empty, and `Xml.IsLocalName`, such a name
  without a colon;
* `Xml.Tree.IsNamed`, that all elements of a tree have names;
* `Xml.Tree.IsSound`, that all names of a tree are local, that its texts and values are made of
  characters of XML, and that the namespaces of its elements may be declared;

and shows in `isSound_of_read` that every tree that is read is sound.
-/

namespace RenderForest
namespace Xml

/-! ## Names -/

/-- A text of name characters that is not empty. -/
def IsName (name : String) : Prop :=
  name.toList ≠ [] ∧ ∀ c ∈ name.toList, isNameChar c = true

/-- A name as it stands behind its prefix, or without one. -/
structure IsLocalName (name : String) : Prop where
  starts : qname?.startsName name.toList = true
  chars : ∀ c ∈ name.toList, isNameChar c = true
  plain : ':' ∉ name.toList

theorem IsLocalName.isName {name : String} (h : IsLocalName name) : IsName name := by
  refine ⟨?_, h.chars⟩
  intro hnil
  have hstarts := h.starts
  rw [hnil] at hstarts
  cases hstarts

/-- A namespace that may be declared; the two reserved ones may not. -/
structure IsNamespace (uri : String) : Prop where
  chars : ∀ c ∈ uri.toList, isXmlChar c = true
  ne_xml : uri ≠ xmlSpace
  ne_xmlns : uri ≠ xmlnsSpace

/-! ## Trees -/

/-- An attribute with a local name that declares no namespace. -/
structure Attr.IsSound (a : Attr) : Prop where
  name : IsLocalName a.name
  plain : a.name ≠ "xmlns"
  value : ∀ c ∈ a.value.toList, isXmlChar c = true

mutual

/-- All elements of a tree have names. -/
def Tree.IsNamed : Tree → Prop
  | .text _ => True
  | .remark => True
  | .element _ name _ children => IsName name ∧ AreNamed children

def AreNamed : List Tree → Prop
  | [] => True
  | t :: rest => t.IsNamed ∧ AreNamed rest

end

mutual

/-- A tree of characters of XML, local names and namespaces that may be declared. -/
def Tree.IsSound : Tree → Prop
  | .text s => ∀ c ∈ s.toList, isXmlChar c = true
  | .remark => True
  | .element space name attrs children =>
    (∀ uri ∈ space, IsNamespace uri) ∧ IsLocalName name ∧ (∀ a ∈ attrs, a.IsSound) ∧
      AreSound children

def AreSound : List Tree → Prop
  | [] => True
  | t :: rest => t.IsSound ∧ AreSound rest

end

theorem areSound_iff {ts : List Tree} : AreSound ts ↔ ∀ t ∈ ts, t.IsSound := by
  induction ts with
  | nil => simp [AreSound]
  | cons t rest ih => simp [AreSound, ih]

theorem AreSound.cons {t : Tree} {rest : List Tree} (ht : t.IsSound) (h : AreSound rest) :
    AreSound (t :: rest) := ⟨ht, h⟩

theorem AreSound.reverse {ts : List Tree} (h : AreSound ts) : AreSound ts.reverse := by
  rw [areSound_iff] at h ⊢
  intro t ht
  exact h t (List.mem_reverse.1 ht)

mutual

theorem Tree.IsSound.isNamed : ∀ {t : Tree}, t.IsSound → t.IsNamed
  | .text _ => fun _ => trivial
  | .remark => fun _ => trivial
  | .element _ _ _ _ => fun h => ⟨h.2.1.isName, AreSound.areNamed h.2.2.2⟩

theorem AreSound.areNamed : ∀ {ts : List Tree}, AreSound ts → AreNamed ts
  | [] => fun _ => trivial
  | _ :: _ => fun h => ⟨Tree.IsSound.isNamed h.1, AreSound.areNamed h.2⟩

end

/-! ## Start tags -/

theorem isLocalName_of_qname? {run : List Char} {name : QName}
    (hrun : ∀ c ∈ run, isNameChar c = true) (h : qname? run = some name) :
    IsLocalName name.base := by
  have hpiece : ∀ piece ∈ Text.splitOn ':' run, qname?.startsName piece = true →
      IsLocalName (String.ofList piece) := by
    intro piece hpiece hstart
    have hlist : (String.ofList piece).toList = piece := String.toList_ofList
    constructor
    · rw [hlist]
      exact hstart
    · intro c hc
      rw [hlist] at hc
      exact hrun c (Text.mem_of_mem_splitOn hpiece hc)
    · rw [hlist]
      exact Text.not_mem_of_mem_splitOn hpiece
  unfold qname? at h
  -- A name without a prefix, one with a prefix, and no name.
  split at h
  · rename_i base hsplit
    split at h
    · rename_i hstart
      cases h
      exact hpiece base (hsplit ▸ List.mem_cons_self ..) hstart
    · cases h
  · rename_i space base hsplit
    split at h
    · rename_i hstart
      cases h
      exact hpiece base (hsplit ▸ List.mem_cons_of_mem _ (List.mem_cons_self ..))
        (Bool.and_eq_true_iff.1 hstart).2
    · cases h
  · cases h

theorem isLocalName_of_readQName? {s rest : List Char} {name : QName}
    (h : readQName? s = some (name, rest)) : IsLocalName name.base := by
  rcases Option.map_eq_some_iff.1 h with ⟨q, hq, heq⟩
  cases heq
  exact isLocalName_of_qname? (List.all_eq_true.1 List.all_takeWhile) hq

/-- An attribute as it is read, its prefix not yet resolved. -/
structure RawAttr.IsSound (a : RawAttr) : Prop where
  name : IsLocalName a.1.base
  value : ∀ c ∈ a.2.toList, isXmlChar c = true

theorem isSound_of_readAttr? {s rest : List Char} {a : RawAttr}
    (h : readAttr? s = some (a, rest)) : RawAttr.IsSound a := by
  unfold readAttr? at h
  split at h
  · cases h
  · rename_i name after hname
    -- An equals sign, a quote, and the same quote behind the value.
    split at h
    · split at h
      · split at h
        · simp only at h
          split at h
          · split at h
            · rcases Option.map_eq_some_iff.1 h with ⟨v, hv, heq⟩
              cases heq
              refine ⟨isLocalName_of_readQName? hname, ?_⟩
              rw [String.toList_ofList]
              exact forall_mem_valueOf? hv
            · cases h
          · cases h
        · cases h
      · cases h
    · cases h

theorem areSound_of_readAttrs? {fuel : Nat} {done raw : List RawAttr} {s rest : List Char}
    {closed : Bool} (hdone : ∀ a ∈ done, RawAttr.IsSound a)
    (h : readAttrs? fuel done s = some (raw, closed, rest)) : ∀ a ∈ raw, RawAttr.IsSound a := by
  induction fuel generalizing done s with
  | zero =>
      unfold readAttrs? at h
      cases h
  | succ fuel ih =>
      have hreverse : ∀ a ∈ done.reverse, RawAttr.IsSound a :=
        fun a ha => hdone a (List.mem_reverse.1 ha)
      unfold readAttrs? at h
      -- Two ends, or another attribute behind a blank.
      split at h
      · cases h
        exact hreverse
      · cases h
        exact hreverse
      · split at h
        · split at h
          · rename_i a after ha
            exact ih (List.forall_mem_cons.2 ⟨isSound_of_readAttr? ha, hdone⟩) h
          · cases h
        · cases h

/-! ## Namespaces -/

def Scope.IsSound (scope : Scope) : Prop :=
  ∀ d ∈ scope, IsNamespace d.2

variable {scope own : Scope} {raw : List RawAttr}

theorem Scope.IsSound.concat (h : Scope.IsSound own) {uri : String} (huri : IsNamespace uri)
    (name : String) : Scope.IsSound (own ++ [(name, uri)]) :=
  List.forall_mem_append.2 ⟨h, List.forall_mem_singleton.2 huri⟩

theorem isSound_of_declare? (hraw : ∀ a ∈ raw, RawAttr.IsSound a) (hown : Scope.IsSound own)
    (h : declare? own raw = some scope) : Scope.IsSound scope := by
  induction raw generalizing own with
  | nil =>
      cases h
      exact hown
  | cons a raw ih =>
      rcases a with ⟨name, value⟩
      rcases List.forall_mem_cons.1 hraw with ⟨ha, hraw⟩
      rw [declare?] at h
      split at h
      · -- The declaration of a prefix; the namespace of `xml` is not added.
        split at h
        · cases h
        · rename_i hxmlns
          split at h
          · cases h
          · split at h
            · cases h
            · refine ih hraw ?_ h
              split
              · exact hown
              · rename_i hxml
                exact hown.concat ⟨ha.value, by simpa using hxml, by simpa using hxmlns⟩ _
      · split at h
        · -- The declaration of the default namespace.
          split at h
          · cases h
          · rename_i hreserved
            simp only [Bool.or_eq_true, beq_iff_eq, not_or] at hreserved
            exact ih hraw (hown.concat ⟨ha.value, hreserved.1, hreserved.2⟩ _) h
        · exact ih hraw hown h

theorem isNamespace_of_elementSpace? {name : QName} {space : Option String}
    (hscope : Scope.IsSound scope) (h : elementSpace? scope name = some space) :
    ∀ uri ∈ space, IsNamespace uri := by
  intro uri huri
  unfold elementSpace? at h
  split at h
  · rename_i found hfound
    cases h
    cases huri
    exact hscope (name.space, uri) (Catalog.mem_of_lookup hfound)
  · split at h
    · cases h
      cases huri
    · cases h

theorem areSound_of_resolveAttrs? {done attrs : List Attr} (hraw : ∀ a ∈ raw, RawAttr.IsSound a)
    (hdone : ∀ a ∈ done, a.IsSound) (h : resolveAttrs? scope done raw = some attrs) :
    ∀ a ∈ attrs, a.IsSound := by
  induction raw generalizing done with
  | nil =>
      cases h
      exact fun a ha => hdone a (List.mem_reverse.1 ha)
  | cons a raw ih =>
      rcases a with ⟨name, value⟩
      rcases List.forall_mem_cons.1 hraw with ⟨ha, hraw⟩
      rw [resolveAttrs?] at h
      split at h
      · exact ih hraw hdone h
      · rename_i hplain
        have hne : name.base ≠ "xmlns" := fun heq => hplain (by simp [isDeclaration, heq])
        -- The name has a namespace and is not repeated.
        split at h
        · cases h
        · split at h
          · cases h
          · exact ih hraw (List.forall_mem_cons.2 ⟨⟨ha.name, hne, ha.value⟩, hdone⟩) h

/-- A start tag that is resolved in a sound scope. -/
structure StartTag.IsSound (start : StartTag) : Prop where
  space : ∀ uri ∈ start.space, IsNamespace uri
  attrs : ∀ a ∈ start.attrs, a.IsSound
  scope : Scope.IsSound start.scope

theorem isSound_of_resolve? {name : QName} {start : StartTag} (hscope : Scope.IsSound scope)
    (hraw : ∀ a ∈ raw, RawAttr.IsSound a) (h : resolve? scope name raw = some start) :
    start.IsSound := by
  unfold resolve? at h
  split at h
  · cases h
  · split at h
    · cases h
    · rename_i own hown
      have hinner : Scope.IsSound (own ++ scope) :=
        List.forall_mem_append.2 ⟨isSound_of_declare? hraw (List.forall_mem_nil _) hown, hscope⟩
      simp only at h
      split at h
      · rename_i hspace hattrs
        cases h
        exact ⟨isNamespace_of_elementSpace? hinner hspace,
          areSound_of_resolveAttrs? hraw (List.forall_mem_nil _) hattrs, hinner⟩
      · cases h

/-! ## Reading -/

/-- With some fuel only sound elements are read, and added to content that is sound. -/
structure ReadsSound (fuel : Nat) : Prop where
  element : ∀ scope s t rest, Scope.IsSound scope →
    readElement? fuel scope s = some (t, rest) → t.IsSound
  content : ∀ scope done s children stop rest, Scope.IsSound scope → AreSound done →
    readContent? fuel scope done s = some (children, stop, rest) → AreSound children

theorem ReadsSound.succ_element {fuel : Nat} (ih : ReadsSound fuel) {s rest : List Char}
    {t : Tree} (hscope : Scope.IsSound scope)
    (h : readElement? (fuel + 1) scope s = some (t, rest)) : t.IsSound := by
  unfold readElement? at h
  -- Refused texts aside, an element is empty, or has content and an end tag.
  split at h
  · cases h
  · rename_i name after hname
    have hbase := isLocalName_of_readQName? hname
    split at h
    · cases h
    · rename_i raw closed after hattrs
      have hraw := areSound_of_readAttrs? (List.forall_mem_nil _) hattrs
      split at h
      · cases h
      · rename_i start hresolve
        have hstart := isSound_of_resolve? hscope hraw hresolve
        split at h
        · cases h
          exact ⟨hstart.space, hbase, hstart.attrs, trivial⟩
        · split at h
          · rename_i children stop after hchildren
            split at h
            · cases h
              have hnone : AreSound [] := trivial
              exact ⟨hstart.space, hbase, hstart.attrs,
                ih.content _ _ _ _ _ _ hstart.scope hnone hchildren⟩
            · cases h
          · cases h

theorem isSound_text_ofList {body : List Char} (h : ∀ c ∈ body, isXmlChar c = true) :
    (Tree.text (String.ofList body)).IsSound := by
  rw [Tree.IsSound, String.toList_ofList]
  exact h

theorem isSound_of_readSection? {s body rest : List Char}
    (h : readSection? s = some (body, rest)) : (Tree.text (String.ofList body)).IsSound := by
  unfold readSection? at h
  split at h
  · split at h
    · rename_i hall
      cases h
      exact isSound_text_ofList (List.all_eq_true.1 hall)
    · cases h
  · cases h

theorem ReadsSound.succ_content {fuel : Nat} (ih : ReadsSound fuel) {done children : List Tree}
    {s rest : List Char} {stop : QName} (hscope : Scope.IsSound scope) (hdone : AreSound done)
    (h : readContent? (fuel + 1) scope done s = some (children, stop, rest)) :
    AreSound children := by
  have hremark : Tree.remark.IsSound := trivial
  unfold readContent? at h
  -- The end of the text, a comment, a marked section, an instruction, an end tag, an element and
  -- a text.
  split at h
  · cases h
  · split at h
    · exact ih.content _ _ _ _ _ _ hscope (.cons hremark hdone) h
    · cases h
  · split at h
    · split at h
      · rename_i hsection
        exact ih.content _ _ _ _ _ _ hscope (.cons (isSound_of_readSection? hsection) hdone) h
      · cases h
    · cases h
  · split at h
    · exact ih.content _ _ _ _ _ _ hscope (.cons hremark hdone) h
    · cases h
  · rcases Option.map_eq_some_iff.1 h with ⟨_, _, heq⟩
    cases heq
    exact hdone.reverse
  · split at h
    · rename_i t after ht
      exact ih.content _ _ _ _ _ _ hscope (.cons (ih.element _ _ _ _ hscope ht) hdone) h
    · cases h
  · split at h
    · rename_i body hbody
      have htext := isSound_text_ofList (forall_mem_textOf? hbody)
      exact ih.content _ _ _ _ _ _ hscope (.cons htext hdone) h
    · cases h

theorem readsSound (fuel : Nat) : ReadsSound fuel := by
  -- Both readers hand one unit of fuel less to each other.
  induction fuel with
  | zero =>
      constructor
      · intro scope s t rest _ h
        rw [readElement?] at h
        cases h
      · intro scope done s children stop rest _ _ h
        rw [readContent?] at h
        cases h
  | succ fuel ih =>
      constructor
      · intro scope s t rest hscope h
        exact ih.succ_element hscope h
      · intro scope done s children stop rest hscope hdone h
        exact ih.succ_content hscope hdone h

/-- Every document that is read is a sound tree. -/
theorem isSound_of_read {s : List Char} {t : Tree} (h : read? s = some t) : t.IsSound := by
  unfold read? at h
  split at h
  · split at h
    · rename_i root rest hroot
      split at h
      · cases h
        exact (readsSound _).element _ _ _ _ (List.forall_mem_nil _) hroot
      · cases h
    · cases h
  · cases h

end Xml
end RenderForest
