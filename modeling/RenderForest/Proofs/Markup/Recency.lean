import Mathlib.Data.List.Dedup
import Mathlib.Data.List.Induction
import RenderForest.Markup.Cache
import RenderForest.Proofs.Tree.Sorted
/-!
# Recency — what a cache of parsed markup holds

A cache is asked for one fragment after another.  This file defines:

* `Markup.Cache.run`, a cache after fragments were asked for;
* `Markup.Cache.IsKept`, that a fragment is short enough to be kept, and `Markup.Cache.recent`, the
  fragments of a history that are, each once, the last asked first;
* `Markup.Cache.IsSound`, that a cache holds for each fragment what parsing it gives;

and shows in `entries_run` that a cache holds exactly the first of the recent fragments, as many as
there is room for, and in `parse_fst` that a sound cache answers as if it were not there.
-/

namespace RenderForest
namespace Markup
namespace Cache

/-! ## Histories -/

/-- A cache after fragments were asked for, one after another. -/
def run (c : Cache) (asked : List CacheKey) : Cache :=
  asked.foldl (fun c key => (c.parse key.1 key.2).2) c

/-- A fragment is short enough to be kept. -/
def IsKept (key : CacheKey) : Prop :=
  key.1.utf8ByteSize ≤ longestKept

instance : DecidablePred IsKept := fun key =>
  inferInstanceAs (Decidable (key.1.utf8ByteSize ≤ longestKept))

/-- The fragments of a history that are kept, each once, the last asked first. -/
def recent (asked : List CacheKey) : List CacheKey :=
  (asked.filter fun key => IsKept key).dedup.reverse

def entry (key : CacheKey) : CacheKey × List Node :=
  (key, Markup.parse key.1 key.2)

/-! ## Lists without repetitions -/

section

variable {α : Type} [DecidableEq α] [BEq α] [LawfulBEq α]

theorem dedup_concat (l : List α) (a : α) :
    (l ++ [a]).dedup = l.dedup.filter (· != a) ++ [a] := by
  induction l with
  | nil => rfl
  | cons b l ih =>
      by_cases hb : b ∈ l
      · rw [List.cons_append, List.dedup_cons_of_mem (List.mem_append_left _ hb),
          List.dedup_cons_of_mem hb, ih]
      · by_cases hba : b = a
        · -- The last `a` stands for the first.
          subst hba
          rw [List.cons_append, List.dedup_cons_of_mem (by simp), ih,
            List.dedup_cons_of_notMem hb, List.filter_cons_of_neg (by simp)]
        · have hnot : b ∉ l ++ [a] := by
            simp [hb, hba]
          rw [List.cons_append, List.dedup_cons_of_notMem hnot, ih,
            List.dedup_cons_of_notMem hb, List.filter_cons_of_pos (by simpa using hba),
            List.cons_append]

/-- Without one of its members, a list whose front was cut off begins like the whole list without
that member. -/
theorem take_filter_take (a : α) {l : List α} (hl : l.Nodup) (m : Nat) :
    ((l.take (m + 1)).filter (· != a)).take m = (l.filter (· != a)).take m := by
  induction l generalizing m with
  | nil => rfl
  | cons b l ih =>
      rcases List.nodup_cons.1 hl with ⟨hb, hl⟩
      by_cases hba : b = a
      · -- Behind `a` nothing else goes.
        subst hba
        have hself : ∀ l' : List α, l'.Sublist l → l'.filter (· != b) = l' := by
          intro l' hsub
          refine List.filter_eq_self.2 fun x hx => ?_
          have hne : x ≠ b := by
            rintro rfl
            exact hb (hsub.subset hx)
          simpa using hne
        rw [List.take_succ_cons, List.filter_cons_of_neg (by simp),
          List.filter_cons_of_neg (by simp), hself _ (List.take_sublist m l),
          hself _ (List.Sublist.refl l), List.take_take, Nat.min_self]
      · rw [List.take_succ_cons, List.filter_cons_of_pos (by simpa using hba),
          List.filter_cons_of_pos (by simpa using hba)]
        cases m with
        | zero => rfl
        | succ m => rw [List.take_succ_cons, List.take_succ_cons, ih hl]

end

theorem nodup_recent (asked : List CacheKey) : (recent asked).Nodup :=
  List.nodup_reverse.2 (List.nodup_dedup _)

theorem recent_concat_of_isKept {key : CacheKey} (h : IsKept key) (asked : List CacheKey) :
    recent (asked ++ [key]) = key :: (recent asked).filter (· != key) := by
  have hkeep : [key].filter (fun key => decide (IsKept key)) = [key] := by simp [h]
  rw [recent, List.filter_append, hkeep, dedup_concat, List.reverse_concat, recent,
    List.filter_reverse]

theorem recent_concat_of_not_isKept {key : CacheKey} (h : ¬ IsKept key) (asked : List CacheKey) :
    recent (asked ++ [key]) = recent asked := by
  simp [recent, h]

/-! ## One fragment -/

/-- A cache holds for each fragment what parsing it gives. -/
def IsSound (c : Cache) : Prop :=
  ∀ e ∈ c.entries, e.2 = Markup.parse e.1.1 e.1.2

variable {c : Cache}

theorem isSound_ofCapacity (n : Nat) : (ofCapacity n).IsSound := fun e he => by
  cases he

/-- A fragment that is too long leaves the cache as it is. -/
theorem parse_of_not_isKept {raw : String} {policy : Policy} (h : ¬ IsKept (raw, policy)) :
    c.parse raw policy = (Markup.parse raw policy, c) :=
  if_pos (Nat.not_le.1 h)

/-- A fragment that is kept comes to the front with its nodes. -/
theorem IsSound.parse_of_isKept (hc : c.IsSound) {raw : String} {policy : Policy}
    (h : IsKept (raw, policy)) :
    c.parse raw policy =
      (Markup.parse raw policy, c.touch (raw, policy) (Markup.parse raw policy)) := by
  rw [parse, if_neg (Nat.not_lt.2 h)]
  cases hfound : c.entries.lookup (raw, policy) with
  | none => rfl
  | some nodes =>
      have hnodes : nodes = Markup.parse raw policy := hc _ (Catalog.mem_of_lookup hfound)
      subst hnodes
      rfl

/-- A sound cache answers as if it were not there. -/
theorem IsSound.parse_fst (hc : c.IsSound) (raw : String) (policy : Policy) :
    (c.parse raw policy).1 = Markup.parse raw policy := by
  by_cases h : IsKept (raw, policy)
  · rw [hc.parse_of_isKept h]
  · rw [parse_of_not_isKept h]

theorem IsSound.touch (hc : c.IsSound) (key : CacheKey) :
    (c.touch key (Markup.parse key.1 key.2)).IsSound := by
  intro e he
  rcases List.mem_cons.1 (List.mem_of_mem_take he) with rfl | he
  · rfl
  · exact hc e (List.mem_filter.1 he).1

theorem IsSound.parse_snd (hc : c.IsSound) (raw : String) (policy : Policy) :
    (c.parse raw policy).2.IsSound := by
  by_cases h : IsKept (raw, policy)
  · rw [hc.parse_of_isKept h]
    exact hc.touch _
  · rw [parse_of_not_isKept h]
    exact hc

/-! ## Whole histories -/

theorem run_concat (c : Cache) (asked : List CacheKey) (key : CacheKey) :
    c.run (asked ++ [key]) = ((c.run asked).parse key.1 key.2).2 := by
  simp [run]

theorem IsSound.run (hc : c.IsSound) (asked : List CacheKey) : (c.run asked).IsSound := by
  induction asked using List.reverseRecOn with
  | nil => exact hc
  | append_singleton asked key ih =>
      rw [run_concat]
      exact ih.parse_snd key.1 key.2

theorem capacity_parse (c : Cache) (raw : String) (policy : Policy) :
    (c.parse raw policy).2.capacity = c.capacity := by
  unfold parse
  split
  · rfl
  · split <;> rfl

theorem capacity_run (c : Cache) (asked : List CacheKey) : (c.run asked).capacity = c.capacity := by
  induction asked using List.reverseRecOn with
  | nil => rfl
  | append_singleton asked key ih => rw [run_concat, capacity_parse, ih]

/-- What is moved to the front pushes out what is behind the capacity. -/
theorem entries_touch {m : Nat} {keys : List CacheKey} (hkeys : keys.Nodup) (key : CacheKey)
    (hcapacity : c.capacity = m + 1) (hentries : c.entries = (keys.take (m + 1)).map entry) :
    (c.touch key (Markup.parse key.1 key.2)).entries =
      ((key :: keys.filter (· != key)).take (m + 1)).map entry := by
  have hfilter : (((keys.take (m + 1)).map entry).filter fun e => e.1 != key) =
      ((keys.take (m + 1)).filter (· != key)).map entry := by
    rw [List.filter_map]
    rfl
  calc (c.touch key (Markup.parse key.1 key.2)).entries
      = (entry key :: ((keys.take (m + 1)).filter (· != key)).map entry).take (m + 1) := by
        rw [touch, hcapacity, hentries, hfilter]
        rfl
    _ = entry key :: (((keys.take (m + 1)).filter (· != key)).take m).map entry := by
        rw [List.take_succ_cons, List.map_take]
    _ = ((key :: keys.filter (· != key)).take (m + 1)).map entry := by
        rw [take_filter_take key hkeys, List.take_succ_cons, List.map_cons]

/-- A cache holds the recent fragments of its history, as many as there is room for, each with its
nodes. -/
theorem entries_run (n : Nat) (asked : List CacheKey) :
    ((ofCapacity n).run asked).entries = ((recent asked).take (max n 1)).map entry := by
  have hroom : max n 1 = (max n 1 - 1) + 1 := by omega
  induction asked using List.reverseRecOn with
  | nil => simp [run, recent, ofCapacity]
  | append_singleton asked key ih =>
      have hsound := (isSound_ofCapacity n).run asked
      rw [run_concat]
      by_cases h : IsKept key
      · have hcapacity : ((ofCapacity n).run asked).capacity = (max n 1 - 1) + 1 := by
          rw [capacity_run]
          exact hroom
        rw [hroom] at ih ⊢
        rw [hsound.parse_of_isKept h, recent_concat_of_isKept h]
        exact entries_touch (nodup_recent asked) key hcapacity ih
      · rw [parse_of_not_isKept h, recent_concat_of_not_isKept h]
        exact ih

/-- Two policies of one text stand apart, and the fragment asked last comes first. -/
example :
    recent [("<b>", .safe), ("<i>", .safe), ("<b>", .standard), ("<b>", .safe)] =
      [("<b>", .safe), ("<b>", .standard), ("<i>", .safe)] := by
  decide

end Cache
end Markup
end RenderForest
