import RenderForest.Markup.Policy
import RenderForest.Proofs.Tree.Entries
/-!
# Policies — what each policy removes

Drawings apart, the three policies read the same tree and differ by what they remove.  This file
defines:

* `Markup.namesIn`, the names of the elements of a tree;
* `Node.validated`, a tree without attributes of invalid names;
* `Node.disarmed`, a tree without dangerous elements, whose unsafe values are emptied;

and shows in `parse_policies` that standard markup is trusted markup validated, and safe markup
standard markup disarmed.
-/

namespace RenderForest

/-! ## Removing from trees -/

namespace Safety

/-- The value, or nothing if it may not be written. -/
def blanked (name value : String) : String :=
  if isSafeValue name value then value else ""

end Safety

namespace Node

mutual

/-- The tree with the attributes whose names are valid. -/
def validated : Node → Node
  | .element tag attrs handlers children =>
    .element tag (attrs.filterNames Safety.isValidAttributeName) handlers (validatedIn children)
  | .text s => .text s
  | .comment s => .comment s
  | .fragment children => .fragment (validatedIn children)
  | .component block => .component block
  | .deferred block => .deferred block

def validatedIn : List Node → List Node
  | [] => []
  | n :: rest => n.validated :: validatedIn rest

end

mutual

/-- The tree with its unsafe values emptied, and without dangerous elements and all they hold;
nothing is left of a tree that is such an element. -/
def disarmed : Node → List Node
  | .element tag attrs handlers children =>
    if Safety.isDangerousElement tag then []
    else [.element tag (attrs.mapValues Safety.blanked) handlers (disarmedIn children)]
  | .text s => [.text s]
  | .comment s => [.comment s]
  | .fragment children => [.fragment (disarmedIn children)]
  | .component block => [.component block]
  | .deferred block => [.deferred block]

def disarmedIn : List Node → List Node
  | [] => []
  | n :: rest => n.disarmed ++ disarmedIn rest

end

theorem validatedIn_append (a b : List Node) :
    validatedIn (a ++ b) = validatedIn a ++ validatedIn b := by
  induction a with
  | nil => rfl
  | cons n rest ih => simp [validatedIn, ih]

theorem disarmedIn_append (a b : List Node) :
    disarmedIn (a ++ b) = disarmedIn a ++ disarmedIn b := by
  induction a with
  | nil => rfl
  | cons n rest ih => simp [disarmedIn, ih]

end Node

namespace Markup

/-! ## Attributes -/

theorem filterInto_standard (a : Attributes) (attr : String × Option String) :
    (filterInto .trusted a attr).filterNames Safety.isValidAttributeName =
      filterInto .standard (a.filterNames Safety.isValidAttributeName) attr := by
  rcases attr with ⟨name, value⟩
  -- The trusted attribute is set and dropped again, or never set.
  have htrusted : filterInto .trusted a (name, value) = a.set name (Text.decode (value.getD "")) :=
    rfl
  rw [htrusted, Attributes.filterNames_set]
  cases hname : Safety.isValidAttributeName name <;> simp [filterInto, hname]

theorem filterInto_safe (a : Attributes) (attr : String × Option String) :
    (filterInto .standard a attr).mapValues Safety.blanked =
      filterInto .safe (a.mapValues Safety.blanked) attr := by
  rcases attr with ⟨name, value⟩
  -- A value that is emptied stays under its name, and may be replaced later.
  cases hname : Safety.isValidAttributeName name with
  | false => simp [filterInto, hname]
  | true =>
      cases hsafe : Safety.isSafeValue name (Text.decode (value.getD "")) <;>
        simp [filterInto, hname, hsafe, Attributes.mapValues_set, Safety.blanked]

theorem toAttributes_standard (raw : RawAttributes) :
    raw.toAttributes .standard =
      (raw.toAttributes .trusted).filterNames Safety.isValidAttributeName := by
  have hempty : Attributes.empty = Attributes.empty.filterNames Safety.isValidAttributeName := rfl
  unfold RawAttributes.toAttributes
  rw [hempty]
  exact List.foldl_hom _ fun a attr => (filterInto_standard a attr).symm

theorem toAttributes_safe (raw : RawAttributes) :
    raw.toAttributes .safe = (raw.toAttributes .standard).mapValues Safety.blanked := by
  have hempty : Attributes.empty = Attributes.empty.mapValues Safety.blanked := rfl
  unfold RawAttributes.toAttributes
  rw [hempty]
  exact List.foldl_hom _ fun a attr => (filterInto_safe a attr).symm

/-! ## Trees -/

mutual

def Dom.names : Dom → List String
  | .text _ => []
  | .comment _ => []
  | .element name _ _ children => name :: namesIn children

def namesIn : List Dom → List String
  | [] => []
  | d :: rest => d.names ++ namesIn rest

end

mutual

theorem toNodes_standard :
    ∀ d : Dom, d.toNodes .standard = Node.validatedIn (d.toNodes .trusted)
  | .text _ => rfl
  | .comment _ => rfl
  | .element name attrs source children => by
    have hchildren := listToNodes_standard children
    simp [Dom.toNodes, Node.plain, Node.validatedIn, Node.validated, toAttributes_standard,
      hchildren]

theorem listToNodes_standard :
    ∀ ds : List Dom,
      Dom.listToNodes .standard ds = Node.validatedIn (Dom.listToNodes .trusted ds)
  | [] => rfl
  | d :: rest => by
    rw [Dom.listToNodes, Dom.listToNodes, Node.validatedIn_append]
    rw [toNodes_standard d, listToNodes_standard rest]

end

mutual

theorem toNodes_safe :
    ∀ d : Dom, (∀ name ∈ d.names, Text.sameFolded name "svg" = false) →
      d.toNodes .safe = Node.disarmedIn (d.toNodes .standard)
  | .text _ => fun _ => rfl
  | .comment _ => fun _ => rfl
  | .element name attrs source children => fun hplain => by
    rw [Dom.names, List.forall_mem_cons] at hplain
    -- No element is a drawing, so that a harmless one is converted like any other.
    have hchildren := listToNodes_safe children hplain.2
    cases hname : Safety.isDangerousElement name <;>
      simp [Dom.toNodes, Node.plain, Node.disarmedIn, Node.disarmed, hname, hplain.1,
        toAttributes_safe, hchildren]

theorem listToNodes_safe :
    ∀ ds : List Dom, (∀ name ∈ namesIn ds, Text.sameFolded name "svg" = false) →
      Dom.listToNodes .safe ds = Node.disarmedIn (Dom.listToNodes .standard ds)
  | [] => fun _ => rfl
  | d :: rest => fun hplain => by
    rw [Dom.listToNodes, Dom.listToNodes, Node.disarmedIn_append]
    rw [toNodes_safe d fun name hname => hplain name (List.mem_append_left _ hname)]
    rw [listToNodes_safe rest fun name hname => hplain name (List.mem_append_right _ hname)]

end

/-! ## Texts -/

/-- Standard markup is trusted markup without the attributes whose names are not valid, and safe
markup without drawings is standard markup without dangerous elements and unsafe values. -/
theorem parse_policies {raw : String}
    (hplain : ∀ name ∈ namesIn (read raw), Text.sameFolded name "svg" = false) :
    parse raw .standard = Node.validatedIn (parse raw .trusted) ∧
      parse raw .safe = Node.disarmedIn (parse raw .standard) :=
  ⟨listToNodes_standard (read raw), listToNodes_safe (read raw) hplain⟩

/-- A script is deleted, and a handler; the URL that runs one is emptied. -/
theorem parse_policies_link :
    let raw := "<p><SCRIPT>x</SCRIPT><a onclick='x' href='javascript:x'>y</a></p>"
    (∀ name ∈ namesIn (read raw), Text.sameFolded name "svg" = false) ∧
      (Node.disarmedIn (Node.validatedIn (parse raw .trusted)) ==
        [.plain "p" .empty
          [.plain "a" (Attributes.ofList [("href", "")]) [.text "y"]]]) = true := by
  intro raw
  have hplain : ∀ name ∈ namesIn (read raw), Text.sameFolded name "svg" = false := by
    decide +kernel
  have hsafe : (parse raw .safe ==
      [.plain "p" .empty [.plain "a" (Attributes.ofList [("href", "")]) [.text "y"]]]) = true := by
    decide +kernel
  rcases parse_policies hplain with ⟨hstandard, hdisarmed⟩
  exact ⟨hplain, by rw [← hstandard, ← hdisarmed, hsafe]⟩

end Markup
end RenderForest
