import RenderForest.Proofs.Forest.DocumentOrder
/-!
# Sights — what a reader sees of a tree

Of a tree a reader sees the characters of its texts, and for each image the text that stands for
it, all in document order.  This file defines:

* `Sight`, `Node.sights` and `Node.sightsAll`;
* `Node.alts` and `Node.altsAll`, the texts that stand for the images;

and shows that the text content of a tree and the texts of its images are read off its sights, and
that sights may be read off a forest token by token.
-/

namespace RenderForest

/-- A character, or an image with the text that stands for it. -/
inductive Sight where
  | char (c : Char)
  | image (alt : Option String)
  deriving DecidableEq, Repr

def Sight.char? : Sight → Option Char
  | .char c => some c
  | .image _ => none

def Sight.alt? : Sight → Option (Option String)
  | .char _ => none
  | .image alt => some alt

def Sight.ofText (s : String) : List Sight :=
  s.toList.map .char

namespace Node

mutual

/-- What a reader sees of a tree, in document order. -/
def sights : Node → List Sight
  | .text s => Sight.ofText s
  | .element tag attrs _ cs =>
    (if tag == "img" then [.image (attrs.get? "alt")] else []) ++ sightsAll cs
  | .fragment cs => sightsAll cs
  | _ => []

def sightsAll : List Node → List Sight
  | [] => []
  | n :: rest => n.sights ++ sightsAll rest

end

mutual

/-- The texts that stand for the images of a tree, in document order. -/
def alts : Node → List (Option String)
  | .element tag attrs _ cs =>
    (if tag == "img" then [attrs.get? "alt"] else []) ++ altsAll cs
  | .fragment cs => altsAll cs
  | _ => []

def altsAll : List Node → List (Option String)
  | [] => []
  | n :: rest => n.alts ++ altsAll rest

end

theorem sightsAll_eq (nodes : List Node) : sightsAll nodes = nodes.flatMap sights := by
  induction nodes with
  | nil => rfl
  | cons n rest ih => rw [sightsAll, List.flatMap_cons, ih]

theorem sightsAll_append (as bs : List Node) :
    sightsAll (as ++ bs) = sightsAll as ++ sightsAll bs := by
  simp only [sightsAll_eq, List.flatMap_append]

/-- The sights of a node are those of its own, and then those of its children. -/
theorem readsInOrder_sights : Forest.ReadsInOrder sights := by
  intro n extra hn
  cases n with
  | element tag attrs handlers cs =>
      rw [append, sights, sights, sightsAll_append, ← sightsAll_eq, List.append_assoc]
  | fragment cs => rw [append, sights, sights, sightsAll_append, ← sightsAll_eq]
  | _ => cases hn

theorem filterMap_char?_ofText (s : String) :
    (Sight.ofText s).filterMap Sight.char? = s.toList := by
  simp [Sight.ofText, List.filterMap_map, Function.comp_def, Sight.char?]

theorem filterMap_alt?_ofText (s : String) : (Sight.ofText s).filterMap Sight.alt? = [] := by
  simp [Sight.ofText, List.filterMap_map, Function.comp_def, Sight.alt?]

mutual

theorem toList_textContent : ∀ n : Node, n.textContent.toList = n.sights.filterMap Sight.char?
  | .text s => by rw [textContent, sights, filterMap_char?_ofText]
  | .element tag attrs _ cs => by
    rw [textContent, sights, List.filterMap_append, toList_textContents cs]
    split <;> rfl
  | .fragment cs => by rw [textContent, sights, toList_textContents cs]
  | .comment _ => rfl
  | .component _ => rfl
  | .deferred _ => rfl

/-- The characters that a reader sees are the text content. -/
theorem toList_textContents :
    ∀ ns : List Node, (textContents ns).toList = (sightsAll ns).filterMap Sight.char?
  | [] => rfl
  | n :: rest => by
    rw [textContents, sightsAll, String.toList_append, List.filterMap_append,
      toList_textContent n, toList_textContents rest]

end

mutual

theorem alts_eq : ∀ n : Node, n.alts = n.sights.filterMap Sight.alt?
  | .text s => by simp [alts, sights, filterMap_alt?_ofText]
  | .element tag attrs _ cs => by
    rw [alts, sights, List.filterMap_append, altsAll_eq cs]
    split <;> rfl
  | .fragment cs => by rw [alts, sights, altsAll_eq cs]
  | .comment _ => rfl
  | .component _ => rfl
  | .deferred _ => rfl

/-- The images that a reader sees have the texts that stand for them. -/
theorem altsAll_eq : ∀ ns : List Node, altsAll ns = (sightsAll ns).filterMap Sight.alt?
  | [] => rfl
  | n :: rest => by
    rw [altsAll, sightsAll, List.filterMap_append, alts_eq n, altsAll_eq rest]

end

end Node
end RenderForest
