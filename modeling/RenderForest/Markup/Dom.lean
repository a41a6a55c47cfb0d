import RenderForest.Text.Blank
/-!
# Dom — raw markup, read leniently

Raw markup need not be well formed.  The reader goes through it once, from left to right: `<`
begins a tag, and everything up to the next `<` is text.  A tag that cannot be read is dropped,
and reading goes on behind the part that was seen.  This file defines:

* `Markup.RawAttributes`, the attributes of a tag: those with a name of their own, then `id` and
  `class`;
* `Markup.Dom`, the tree that is read, in which each tag keeps its source text;
* `Markup.Tag.read`, which reads one tag;
* `Markup.read`, which reads a text.
-/

namespace RenderForest
namespace Markup

/-! ## Trees -/

/-- The attributes of a tag.  `id` and `class` are kept apart and come last. -/
structure RawAttributes where
  named : List (String × Option String) := []
  ident : Option String := none
  classes : Option String := none
  deriving DecidableEq, Repr

/-- Stores a value under a name; a repeated name keeps its place. -/
def storeNamed (name : String) (value : Option String) :
    List (String × Option String) → List (String × Option String)
  | [] => [(name, value)]
  | (n, v) :: rest => if n == name then (n, value) :: rest else (n, v) :: storeNamed name value rest

def RawAttributes.store (a : RawAttributes) (name : String) (value : Option String) :
    RawAttributes :=
  if name == "id" then { a with ident := value }
  else if name == "class" then { a with classes := value }
  else { a with named := storeNamed name value a.named }

/-- All attributes in order; `id` and `class` are only listed with a value. -/
def RawAttributes.toList (a : RawAttributes) : List (String × Option String) :=
  a.named ++ (a.ident.toList.map fun v => ("id", some v)) ++
    (a.classes.toList.map fun v => ("class", some v))

/-- A tree of raw markup.  `source` is the text of an element from its start tag to its end tag,
or the start tag alone if it is never closed. -/
inductive Dom where
  | text (raw : String)
  | comment (raw : String)
  | element (name : String) (attrs : RawAttributes) (source : String) (children : List Dom)
  deriving Repr

/-! ## Characters -/

def isIdent (c : Char) : Bool :=
  c.isAlphanum || c == '-' || c == '_' || c == ':' || c == '+' || c == '/'

def isGap (c : Char) : Bool :=
  c == ' ' || c == '\n'

def endsBareValue (c : Char) : Bool :=
  c == ' ' || c == '\n' || c == '/' || c == '>'

def isClosing (c : Char) : Bool :=
  c == '>' || c == '/'

def spanWhile (p : Char → Bool) (s : List Char) : List Char × List Char :=
  (s.takeWhile p, s.dropWhile p)

def skipGap (s : List Char) : List Char :=
  s.dropWhile isGap

theorem skipGap_length (s : List Char) : (skipGap s).length ≤ s.length :=
  (List.dropWhile_sublist isGap).length_le

/-! ## Attributes -/

/-- Reads the value behind an equals sign.  A value in quotes ends before the closing quote,
which is left in the rest. -/
def readValue (s : List Char) : List Char × List Char :=
  match skipGap s with
  | '\x22' :: rest => spanWhile (· != '\x22') rest
  | '\x27' :: rest => spanWhile (· != '\x27') rest
  | rest => spanWhile (fun c => !endsBareValue c) rest

def readAttribute (s : List Char) : String × Option String × List Char :=
  let (name, rest) := spanWhile isIdent s
  match skipGap rest with
  | '=' :: rest =>
    let (value, rest) := readValue rest
    (String.ofList name, some (String.ofList value), rest)
  | rest => (String.ofList name, none, rest)

theorem readValue_length (s : List Char) : (readValue s).2.length ≤ s.length := by
  have hs := skipGap_length s
  unfold readValue
  split
  · rename_i rest h
    have := (List.dropWhile_sublist (· != '\x22') (l := rest)).length_le
    simp [spanWhile]; rw [h] at hs; simp at hs; omega
  · rename_i rest h
    have := (List.dropWhile_sublist (· != '\x27') (l := rest)).length_le
    simp [spanWhile]; rw [h] at hs; simp at hs; omega
  · have := (List.dropWhile_sublist (fun c => !endsBareValue c) (l := skipGap s)).length_le
    simp [spanWhile]; omega

theorem readAttribute_length (s : List Char) : (readAttribute s).2.2.length ≤ s.length := by
  have h1 := (List.dropWhile_sublist isIdent (l := s)).length_le
  have h2 := skipGap_length (s.dropWhile isIdent)
  unfold readAttribute
  simp only [spanWhile]
  split
  · rename_i rest h
    rw [h] at h2; simp at h2
    have := readValue_length rest
    simp; omega
  · simp; omega

/-- Reads the attributes of a tag up to the character that may end it; `none` if the text ends
first.  Behind each attribute one character is swallowed unless it may end the tag; of a
character that takes several bytes the later bytes are left, and count as one nameless
attribute. -/
def readAttributes (attrs : RawAttributes) (s : List Char) :
    Option (RawAttributes × List Char) :=
  match _h : skipGap s with
  | [] => none
  | c :: rest =>
    if isClosing c then some (attrs, c :: rest)
    else
      match _ha : readAttribute (c :: rest) with
      | (name, value, after) =>
        let attrs := attrs.store name value
        match after with
        | [] => none
        | d :: tail =>
          if isClosing d then some (attrs, d :: tail)
          else readAttributes (if 1 < d.utf8Size then attrs.store "" none else attrs) tail
termination_by s.length
decreasing_by
  have h1 := skipGap_length s
  have h2 := readAttribute_length (c :: rest)
  rw [_h] at h1
  rw [_ha] at h2
  simp at h1 h2
  omega

/-! ## Tags -/

def voidElements : List String :=
  ["area", "base", "br", "col", "embed", "hr", "img", "input", "keygen", "link", "meta", "param",
    "source", "track", "wbr"]

inductive Tag where
  /-- A start tag; `closed` if it has no content. -/
  | start (name : String) (attrs : RawAttributes) (closed : Bool)
  | stop (name : String)
  /-- A comment with its delimiters, empty if it is not closed. -/
  | comment (raw : String)
  /-- A declaration, and the replacement characters of bytes that it leaves behind. -/
  | declaration (leftover : Nat)
  | unreadable
  deriving Repr

/-- Reads a comment behind `<!`; a pair of hyphens ends it when `>` follows, and otherwise the
character behind the pair is passed over. -/
def readComment (done : List Char) : List Char → Option (List Char × List Char)
  | '-' :: '-' :: '>' :: rest => some (('>' :: '-' :: '-' :: done).reverse, rest)
  | '-' :: '-' :: c :: rest => readComment (c :: '-' :: '-' :: done) rest
  | c :: rest => readComment (c :: done) rest
  | [] => none

/-- Reads the rest of a document type, up to one character behind its first name. -/
def readDoctype (s : List Char) : Tag × List Char :=
  match skipGap (s.dropWhile isIdent) with
  | [] => (.declaration 0, [])
  | c :: rest => (.declaration (c.utf8Size - 1), rest)

def readKeyword (s : List Char) : Tag × List Char :=
  if Text.sameFolded (String.ofList (s.takeWhile isIdent)) "doctype" then
    readDoctype (skipGap (s.dropWhile isIdent))
  else (.declaration 0, skipGap (s.dropWhile isIdent))

def readDeclaration (s : List Char) : Tag × List Char :=
  match s with
  | '-' :: '-' :: _ =>
    match readComment ['!', '<'] s with
    | some (raw, rest) => (.comment (String.ofList raw), rest)
    | none => (.comment "", [])
  | s => readKeyword s

def readStart (name : List Char) (s : List Char) : Tag × List Char :=
  match readAttributes {} s with
  | none => (.unreadable, [])
  | some (attrs, '/' :: rest) =>
    match rest with
    | '>' :: rest => (.start (String.ofList name) attrs true, rest)
    | rest => (.unreadable, rest)
  | some (attrs, '>' :: rest) =>
    (.start (String.ofList name) attrs (voidElements.contains (String.ofList name)), rest)
  | some (_, rest) => (.unreadable, rest)

def readTag (s : List Char) : Tag × List Char :=
  match skipGap s with
  | [] => (.unreadable, [])
  | '/' :: rest =>
    match spanWhile (· != '>') rest with
    | (name, '>' :: rest) => (.stop (String.ofList name), rest)
    | _ => (.unreadable, [])
  | '!' :: rest => readDeclaration rest
  | rest => readStart (rest.takeWhile isIdent) (rest.dropWhile isIdent)

/-! ## Reading goes forward -/

theorem readAttributes_length {attrs attrs' : RawAttributes} {s rest : List Char}
    (h : readAttributes attrs s = some (attrs', rest)) : rest.length ≤ s.length := by
  fun_induction readAttributes attrs s with
  | case1 => simp at h
  | case2 attrs s c tail hs _ =>
    have := skipGap_length s
    simp at h
    rw [← h.2, ← hs]
    exact this
  | case3 => simp at h
  | case4 attrs s c tail hs _ name value _ d after ha _ =>
    have h1 := skipGap_length s
    have h2 := readAttribute_length (c :: tail)
    rw [ha] at h2
    rw [hs] at h1
    simp at h h1 h2
    rw [← h.2]
    simp
    omega
  | case5 attrs s c tail hs _ name value _ d after _ _ ha ih =>
    have h1 := skipGap_length s
    have h2 := readAttribute_length (c :: tail)
    have h3 := ih h
    rw [ha] at h2
    rw [hs] at h1
    simp at h1 h2
    omega

theorem readComment_length {done s raw rest : List Char}
    (h : readComment done s = some (raw, rest)) : rest.length ≤ s.length := by
  fun_induction readComment done s with
  | case1 => simp at h; simp [h.2]; omega
  | case2 _ _ _ _ ih => have := ih h; simp; omega
  | case3 _ _ _ _ _ ih => have := ih h; simp; omega
  | case4 => simp at h

theorem readKeyword_length (s : List Char) : (readKeyword s).2.length ≤ s.length := by
  have h1 := (List.dropWhile_sublist isIdent (l := s)).length_le
  have h2 := skipGap_length (s.dropWhile isIdent)
  have h3 := (List.dropWhile_sublist isIdent (l := skipGap (s.dropWhile isIdent))).length_le
  have h4 := skipGap_length ((skipGap (s.dropWhile isIdent)).dropWhile isIdent)
  unfold readKeyword readDoctype
  split
  · split
    · simp
    · rename_i c rest h
      rw [h] at h4
      simp at h4 ⊢
      omega
  · simp
    omega

theorem readDeclaration_length (s : List Char) : (readDeclaration s).2.length ≤ s.length := by
  unfold readDeclaration
  split
  · split
    · rename_i raw rest h
      exact readComment_length h
    · simp
  · exact readKeyword_length _

theorem readStart_length (name s : List Char) : (readStart name s).2.length ≤ s.length := by
  unfold readStart
  split
  · simp
  · rename_i attrs rest h
    have := readAttributes_length h
    split <;> simp at this ⊢ <;> omega
  · rename_i attrs rest h
    have := readAttributes_length h
    simp at this ⊢
    omega
  · rename_i attrs rest h
    exact readAttributes_length h

theorem readTag_length (s : List Char) : (readTag s).2.length ≤ s.length := by
  have hs := skipGap_length s
  unfold readTag
  split
  · simp
  · rename_i rest h
    rw [h] at hs
    have := (List.dropWhile_sublist (· != '>') (l := rest)).length_le
    simp only [spanWhile]
    split
    · rename_i name tail heq
      simp at heq hs
      rw [heq.2] at this
      simp at this ⊢
      omega
    · simp
  · rename_i rest h
    rw [h] at hs
    have := readDeclaration_length rest
    simp at hs
    omega
  · have h1 := (List.dropWhile_sublist isIdent (l := skipGap s)).length_le
    have h2 := readStart_length ((skipGap s).takeWhile isIdent) ((skipGap s).dropWhile isIdent)
    omega

/-! ## Trees from tags -/

/-- An element that is still open: its start tag, the text from that tag on, and its children,
the last first. -/
structure OpenElement where
  name : String
  attrs : RawAttributes
  opening : String
  tail : List Char
  children : List Dom

/-- The open elements, the innermost first, and the roots, the last first. -/
structure Builder where
  stack : List OpenElement := []
  roots : List Dom := []

namespace Builder

def add (b : Builder) (d : Dom) : Builder :=
  match b.stack with
  | [] => { b with roots := d :: b.roots }
  | top :: below => { b with stack := { top with children := d :: top.children } :: below }

def close (b : Builder) (source : OpenElement → String) : Builder :=
  match b.stack with
  | [] => b
  | top :: below =>
    { b with stack := below }.add
      (.element top.name top.attrs (source top) top.children.reverse)

/-- The trees, all open elements closed. -/
def finish (b : Builder) : List Dom :=
  (b.stack.foldl (fun b _ => b.close OpenElement.opening) b).roots.reverse

/-- Does what a tag says; `tail` is the text from the tag on and `rest` that behind it. -/
def tag (b : Builder) (tail rest : List Char) : Tag → Builder
  | .start name attrs closed =>
    let opening := String.ofList (tail.take (tail.length - rest.length))
    if closed then b.add (.element name attrs opening [])
    else { b with stack := ⟨name, attrs, opening, tail, []⟩ :: b.stack }
  | .stop name =>
    match b.stack with
    | [] => b
    | top :: _ =>
      if top.name == name then
        b.close fun e => String.ofList (e.tail.take (e.tail.length - rest.length))
      else b
  | .comment raw => b.add (.comment raw)
  | .declaration _ => b
  | .unreadable => b

end Builder

/-- The number of replacement characters that a tag leaves in front of the text behind it. -/
def Tag.leftover : Tag → Nat
  | .declaration n => n
  | _ => 0

def replacement : Char := '\ufffd'

def readFrom (b : Builder) (s : List Char) : Builder :=
  match s with
  | [] => b
  | c :: rest =>
    if c == '<' then
      match _h : readTag rest with
      | (t, after) =>
        let b := b.tag (c :: rest) after t
        if t.leftover == 0 then readFrom b after
        else
          let text := List.replicate t.leftover replacement ++ after.takeWhile (· != '<')
          readFrom (b.add (.text (String.ofList text))) (after.dropWhile (· != '<'))
    else
      readFrom (b.add (.text (String.ofList (c :: rest.takeWhile (· != '<')))))
        (rest.dropWhile (· != '<'))
termination_by s.length
decreasing_by
  · have := readTag_length rest
    rw [_h] at this
    simp at this ⊢
    omega
  · have h1 := readTag_length rest
    have h2 := (List.dropWhile_sublist (· != '<') (l := after)).length_le
    rw [_h] at h1
    simp at h1 h2 ⊢
    omega
  · have := (List.dropWhile_sublist (· != '<') (l := rest)).length_le
    simp at this ⊢
    omega

def read (raw : String) : List Dom :=
  (readFrom {} raw.toList).finish

end Markup
end RenderForest
