import RenderForest.Proofs.Markup.Drawings
/-!
# SafeMarkup — when safe markup is clean

Outside drawings the safe policy leaves nothing that may not be shown.  This file defines:

* `Markup.drawingsIn`, the source texts of the drawings of a tree;

and shows in `everyIn_parse_safe` that safe markup is clean exactly when all its drawings are
legible, and in `not_everyIn_parse_safe` that some are not.
-/

namespace RenderForest
namespace Markup

/-! ## Outside drawings -/

theorem mayBeWritten_filterInto {a : Attributes} (h : a.MayBeWritten)
    (attr : String × Option String) : (filterInto .safe a attr).MayBeWritten := by
  rcases attr with ⟨name, value⟩
  cases hname : Safety.isValidAttributeName name with
  | false => simpa [filterInto, hname] using h
  | true =>
      cases hsafe : Safety.isSafeValue name (Text.decode (value.getD "")) with
      | false =>
          have hset := h.setSafe hname (Safety.isSafeValue_empty name)
          simpa [filterInto, hname, hsafe] using hset
      | true =>
          have hset := h.setSafe hname hsafe
          simpa [filterInto, hname, hsafe] using hset

/-- The safe policy lets only attributes through that may be written. -/
theorem mayBeWritten_toAttributes_safe (raw : RawAttributes) :
    (raw.toAttributes .safe).MayBeWritten :=
  List.foldlRecOn raw.toList (filterInto .safe) Attributes.mayBeWritten_empty
    fun _ h attr _ => mayBeWritten_filterInto h attr

mutual

/-- The source texts of the drawings of a tree, those in dangerous elements and in other drawings
aside. -/
def Dom.drawings : Dom → List String
  | .text _ => []
  | .comment _ => []
  | .element name _ source children =>
    if Safety.isDangerousElement name then []
    else if Text.sameFolded name "svg" then [source]
    else drawingsIn children

def drawingsIn : List Dom → List String
  | [] => []
  | d :: rest => d.drawings ++ drawingsIn rest

end

mutual

theorem everyIn_toNodes_safe :
    ∀ d : Dom, Node.EveryIn IsClean (d.toNodes .safe) ↔
      ∀ s ∈ d.drawings, Node.EveryIn IsClean (trustedNodes (Vector.sanitize s))
  | .text _ => by simp [Dom.toNodes, Dom.drawings]
  | .comment _ => by simp [Dom.toNodes, Dom.drawings]
  | .element name attrs source children => by
    have hattrs := mayBeWritten_toAttributes_safe attrs
    have hchildren := everyIn_listToNodes_safe children
    cases hname : Safety.isDangerousElement name with
    | true => simp [Dom.toNodes, Dom.drawings, hname]
    | false =>
        cases hsvg : Text.sameFolded name "svg" with
        | true =>
            -- The drawing stands for itself, whatever it holds.
            simp [Dom.toNodes, Dom.drawings, hname, hsvg]
        | false =>
            simp [Dom.toNodes, Dom.drawings, hname, hsvg, isClean_iff, hattrs, hchildren]

theorem everyIn_listToNodes_safe :
    ∀ ds : List Dom, Node.EveryIn IsClean (Dom.listToNodes .safe ds) ↔
      ∀ s ∈ drawingsIn ds, Node.EveryIn IsClean (trustedNodes (Vector.sanitize s))
  | [] => by simp [Dom.listToNodes, drawingsIn]
  | d :: rest => by
    rw [Dom.listToNodes, Node.everyIn_append, drawingsIn, List.forall_mem_append]
    rw [everyIn_toNodes_safe d, everyIn_listToNodes_safe rest]

end

/-! ## Safe markup -/

/-- The nodes of a drawing in safe markup are clean exactly when its trees are legible, and safe
markup is clean exactly when that is so for all its drawings. -/
theorem everyIn_parse_safe (raw : String) :
    (∀ source ∈ drawingsIn (read raw),
        (Node.EveryIn IsClean (trustedNodes (Vector.sanitize source)) ↔
          Xml.AreLegible (Vector.treesOf source))) ∧
      (Node.EveryIn IsClean (parse raw .safe) ↔
        ∀ source ∈ drawingsIn (read raw), Xml.AreLegible (Vector.treesOf source)) := by
  refine ⟨fun source _ => everyIn_sanitize source, ?_⟩
  rw [parse, everyIn_listToNodes_safe]
  simp only [everyIn_sanitize]

/-- A URL may hide behind a dot: to the lenient reader the name ends there, and one valid and
harmless attribute falls into two, the second of which runs a script. -/
theorem not_everyIn_parse_safe :
    ¬ Node.EveryIn IsClean
      (parse "<svg><a b.href=\"javascript:alert(1)\">x</a></svg>" .safe) := by
  decide +kernel

example : Node.EveryIn IsClean
    (parse "<svg><script>x</script><circle r='1' onclick='x'/></svg>" .safe) := by
  decide +kernel

end Markup
end RenderForest
