import RenderForest.Source.LineMap
/-!
# LineMarks — where the lines of a text start and end

This file defines:

* `LineMap.IsOrdered`, that lines start one behind the other, none of them behind the text;

and shows in `isOrdered_ofChars` that the lines of every text do, and what follows for their ends:

* `IsOrdered.start_le_end`: no line ends before it starts;
* `IsOrdered.pairwise_ends`, `IsOrdered.end_le`: lines end in the order in which they start, none
  of them behind the text;
* `lineOf_mono`: a later offset stands in no earlier line.
-/

namespace RenderForest

theorem takeWhile_prefix_of_imp {α : Type} {P Q : α → Bool} (h : ∀ x, P x = true → Q x = true)
    (l : List α) : l.takeWhile P <+: l.takeWhile Q := by
  induction l with
  | nil => exact List.prefix_refl _
  | cons x l ih =>
      cases hx : P x with
      | false => simp [hx]
      | true => simpa [hx, h x hx] using ih

namespace Text

theorem foldl_utf8Size (s : List Char) (n : Nat) :
    s.foldl (fun n c => n + c.utf8Size) n = n + byteLength s := by
  unfold byteLength
  induction s generalizing n with
  | nil => rfl
  | cons c s ih =>
      rw [List.foldl_cons, List.foldl_cons, ih, ih (0 + c.utf8Size)]
      omega

theorem byteLength_cons (c : Char) (s : List Char) :
    byteLength (c :: s) = c.utf8Size + byteLength s := by
  rw [byteLength, List.foldl_cons, foldl_utf8Size, Nat.zero_add]

theorem byteLength_ofList (s : List Char) : (String.ofList s).utf8ByteSize = byteLength s := by
  induction s with
  | nil => rfl
  | cons c s ih =>
      have hsplit : String.ofList (c :: s) = String.singleton c ++ String.ofList s := by
        simp [← String.ofList_cons]
      rw [hsplit, String.utf8ByteSize_append, String.utf8ByteSize_singleton, ih, byteLength_cons]

/-- The bytes of a string are those of its characters. -/
theorem byteLength_toList (s : String) : byteLength s.toList = s.utf8ByteSize := by
  rw [← byteLength_ofList, String.ofList_toList]

end Text

namespace LineMap

/-- Lines start one behind the other, and none of them behind the text. -/
structure IsOrdered (m : LineMap) : Prop where
  starts : m.starts.Pairwise (· < ·)
  bound : ∀ x ∈ m.starts, x ≤ m.length

/-! ## Starts -/

theorem mem_breaks_bounds {offset x : Nat} {s : List Char} (h : x ∈ breaks offset s) :
    offset < x ∧ x ≤ offset + Text.byteLength s := by
  induction s generalizing offset with
  | nil => cases h
  | cons c s ih =>
      rw [Text.byteLength_cons]
      rw [breaks] at h
      split at h
      · rename_i hc
        have hsize : c.utf8Size = 1 := by
          rw [eq_of_beq hc]
          decide
        rcases List.mem_cons.1 h with rfl | h
        · omega
        · have hlater := ih h
          omega
      · have hpos := c.utf8Size_pos
        have hlater := ih h
        omega

theorem pairwise_breaks (offset : Nat) (s : List Char) : (breaks offset s).Pairwise (· < ·) := by
  induction s generalizing offset with
  | nil => exact List.Pairwise.nil
  | cons c s ih =>
      rw [breaks]
      split
      · exact List.pairwise_cons.2 ⟨fun x hx => (mem_breaks_bounds hx).1, ih _⟩
      · exact ih _

/-- The lines of a text are ordered. -/
theorem isOrdered_ofChars (s : List Char) : (ofChars s).IsOrdered := by
  constructor
  · exact List.pairwise_cons.2 ⟨fun x hx => (mem_breaks_bounds hx).1, pairwise_breaks 0 s⟩
  · intro x hx
    rcases List.mem_cons.1 hx with rfl | hx
    · exact Nat.zero_le _
    · have hbound := (mem_breaks_bounds hx).2
      rwa [Nat.zero_add] at hbound

/-! ## Ends -/

theorem length_endsFrom (length : Nat) (starts : List Nat) :
    (endsFrom length starts).length = starts.length := by
  induction starts using endsFrom.induct with
  | case1 => rfl
  | case2 start => rfl
  | case3 start next rest ih => rw [endsFrom, List.length_cons, List.length_cons, ih]

/-- No line ends before the first of them starts. -/
theorem le_of_mem_endsFrom {length start x : Nat} {rest : List Nat}
    (h : (start :: rest).Pairwise (· < ·)) (hx : x ∈ endsFrom length (start :: rest)) :
    start ≤ x := by
  induction rest generalizing start with
  | nil =>
      rw [endsFrom, List.mem_singleton] at hx
      omega
  | cons next rest ih =>
      rcases List.pairwise_cons.1 h with ⟨hfirst, hrest⟩
      have hlt := hfirst next (List.mem_cons_self ..)
      rw [endsFrom] at hx
      rcases List.mem_cons.1 hx with rfl | hx
      · omega
      · have hnext := ih hrest hx
        omega

theorem pairwise_endsFrom {length : Nat} {starts : List Nat} (h : starts.Pairwise (· < ·)) :
    (endsFrom length starts).Pairwise (· ≤ ·) := by
  induction starts using endsFrom.induct with
  | case1 => exact List.Pairwise.nil
  | case2 start => exact List.pairwise_singleton _ _
  | case3 start next rest ih =>
      rcases List.pairwise_cons.1 h with ⟨_, hrest⟩
      rw [endsFrom]
      refine List.pairwise_cons.2 ⟨?_, ih hrest⟩
      intro x hx
      have hnext := le_of_mem_endsFrom hrest hx
      omega

theorem endsFrom_le {length x : Nat} {starts : List Nat} (h : ∀ y ∈ starts, y ≤ length)
    (hx : x ∈ endsFrom length starts) : x ≤ length := by
  induction starts using endsFrom.induct with
  | case1 => cases hx
  | case2 start =>
      have hstart := h start (List.mem_cons_self ..)
      rw [endsFrom, List.mem_singleton] at hx
      omega
  | case3 start next rest ih =>
      rcases List.forall_mem_cons.1 h with ⟨_, hrest⟩
      have hnext := hrest next (List.mem_cons_self ..)
      rw [endsFrom] at hx
      rcases List.mem_cons.1 hx with rfl | hx
      · omega
      · exact ih hrest hx

theorem getElem?_endsFrom_le {length start x i : Nat} {starts : List Nat}
    (h : starts.Pairwise (· < ·)) (hstart : starts[i]? = some start)
    (hx : (endsFrom length starts)[i]? = some x) : start ≤ x := by
  induction starts using endsFrom.induct generalizing i with
  | case1 => cases hstart
  | case2 first =>
      have hend : x ∈ endsFrom length [first] := List.mem_of_getElem? hx
      rw [List.mem_singleton.1 (List.mem_of_getElem? hstart)]
      exact le_of_mem_endsFrom h hend
  | case3 first next rest ih =>
      rcases List.pairwise_cons.1 h with ⟨_, hrest⟩
      cases i with
      | zero =>
          cases hstart
          exact le_of_mem_endsFrom h (List.mem_of_getElem? hx)
      | succ i =>
          rw [endsFrom] at hx
          exact ih hrest hstart hx

namespace IsOrdered

variable {m : LineMap}

/-- No line ends before it starts. -/
theorem start_le_end (h : m.IsOrdered) {i start stop : Nat} (hstart : m.starts[i]? = some start)
    (hstop : m.ends[i]? = some stop) : start ≤ stop :=
  getElem?_endsFrom_le h.starts hstart hstop

/-- Lines end in the order in which they start. -/
theorem pairwise_ends (h : m.IsOrdered) : m.ends.Pairwise (· ≤ ·) :=
  pairwise_endsFrom h.starts

/-- No line ends behind the text. -/
theorem end_le (h : m.IsOrdered) {x : Nat} (hx : x ∈ m.ends) : x ≤ m.length :=
  endsFrom_le h.bound hx

end IsOrdered

/-- A later offset stands in no earlier line. -/
theorem lineOf_mono (m : LineMap) {i j : Nat} (h : i ≤ j) : m.lineOf i ≤ m.lineOf j := by
  have hreached : ∀ start, decide (start ≤ min i m.length) = true →
      decide (start ≤ min j m.length) = true := by
    intro start hstart
    simp only [decide_eq_true_eq] at hstart ⊢
    omega
  have hprefix := takeWhile_prefix_of_imp hreached m.starts
  exact Nat.sub_le_sub_right hprefix.length_le 1

end LineMap
end RenderForest
