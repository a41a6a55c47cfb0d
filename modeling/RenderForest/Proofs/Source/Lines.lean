import RenderForest.Proofs.Source.LineMarks
import RenderForest.Source.Env
/-!
# Lines — line maps beside the plain definition of lines

A line feed ends a line, so that the line of an offset is the number of line feeds among the bytes
before it, and the lines are the pieces between them.  This file defines:

* `Text.bytes`, the bytes of a text in UTF-8;
* `LineMap.lineIn`, the number of line feeds before an offset;
* `LineMap.IsSearched`, what a search in ordered numbers may answer;
* `LineMap.ReadsLines`, what a line map of a text has to answer;

and shows in `readsLines_ofString` that the line map of every text answers so.
-/

namespace RenderForest

/-! ## Bytes -/

namespace Text

def bytes (s : List Char) : List UInt8 :=
  s.flatMap String.utf8EncodeChar

def lineFeed : UInt8 := 10

theorem bytes_cons (c : Char) (s : List Char) :
    bytes (c :: s) = String.utf8EncodeChar c ++ bytes s :=
  List.flatMap_cons ..

theorem length_bytes (s : List Char) : (bytes s).length = byteLength s := by
  induction s with
  | nil => rfl
  | cons c s ih =>
      rw [bytes_cons, List.length_append, String.length_utf8EncodeChar, ih, byteLength_cons]

theorem bytes_toList (source : String) : bytes source.toList = source.toUTF8.data.toList := by
  have hsource : source.toUTF8 = source.toList.utf8Encode := by
    conv => lhs; rw [← source.ofList_toList]
    exact String.toByteArray_ofList
  rw [hsource, bytes, List.utf8Encode]
  simp

theorem utf8EncodeChar_lineFeed : String.utf8EncodeChar '\n' = [lineFeed] := by
  decide

/-- Only the line feed is written with its byte: the bytes of a longer character are greater. -/
theorem lineFeed_notMem_utf8EncodeChar {c : Char} (hc : c ≠ '\n') :
    lineFeed ∉ String.utf8EncodeChar c := by
  intro hmem
  have hval : c.val.toNat ≠ 10 := by
    intro hval
    apply hc
    apply Char.ext
    exact UInt32.toNat_inj.1 hval
  have hten : lineFeed.toNat = 10 := rfl
  unfold String.utf8EncodeChar at hmem
  dsimp only at hmem
  -- One case for each number of bytes.
  split at hmem
  · simp only [List.mem_singleton, ← UInt8.toNat_inj, UInt8.toNat_ofNat', hten] at hmem
    omega
  · split at hmem
    · simp only [List.mem_cons, List.not_mem_nil, or_false, ← UInt8.toNat_inj,
        UInt8.toNat_ofNat', hten] at hmem
      omega
    · split at hmem <;>
      · simp only [List.mem_cons, List.not_mem_nil, or_false, ← UInt8.toNat_inj,
          UInt8.toNat_ofNat', hten] at hmem
        omega

end Text

namespace LineMap

open Text (bytes lineFeed)

/-! ## The plain definition of lines -/

/-- The number of line feeds before an offset. -/
def lineIn (content : List UInt8) (offset : Nat) : Nat :=
  (content.take offset).count lineFeed

def slice (content : List UInt8) (start stop : Nat) : List UInt8 :=
  (content.drop start).take (stop - start)

/-- A range of lines holds the line of every byte from one offset up to another. -/
def Covers (content : List UInt8) (start stop : Nat) (lines : Nat × Nat) : Prop :=
  ∀ i, start ≤ i → i < stop → lines.1 ≤ lineIn content i ∧ lineIn content i < lines.2

/-- What a search for a number in ordered numbers may answer: a place of the number, or else the
place where it would have to stand. -/
inductive IsSearched (numbers : List Nat) (x : Nat) : Except Nat Nat → Prop where
  | found {i : Nat} : numbers[i]? = some x → IsSearched numbers x (.ok i)
  | missing {i : Nat} : i ≤ numbers.length → (∀ y ∈ numbers.take i, y < x) →
      (∀ y ∈ numbers.drop i, x < y) → IsSearched numbers x (.error i)

/-- The line that begins at the place of an offset, or else the one before the place where it would
have to stand. -/
def lineOfAnswer : Except Nat Nat → Nat
  | .ok i => i
  | .error i => i - 1

/-- What the line map of a text has to answer, told from the bytes alone. -/
structure ReadsLines (m : LineMap) (content : List UInt8) : Prop where
  length : m.length = content.length
  /-- The line of an offset is the number of line feeds before it. -/
  lineOf : ∀ o, m.lineOf o = lineIn content (min o content.length)
  /-- Every search among the starts of the lines leads to the line. -/
  search : ∀ o, (∃ answer, IsSearched m.starts (min o m.length) answer) ∧
    ∀ answer, IsSearched m.starts (min o m.length) answer → lineOfAnswer answer = m.lineOf o
  /-- The column counts the bytes from the start of the line, with no line feed among them. -/
  position : ∀ o, (m.position o).line = m.lineOf o ∧ ∃ start,
    m.starts[(m.position o).line]? = some start ∧
      start + (m.position o).character = min o content.length ∧
      lineFeed ∉ slice content start (min o content.length)
  /-- The bytes from the start of each line to its end are the pieces between the line feeds. -/
  pieces : m.starts.length = m.ends.length ∧
    List.zipWith (slice content) m.starts m.ends = content.splitOn lineFeed
  /-- The span of a range is the smallest range with the lines of all its bytes. -/
  span : ∀ start stop, start < stop → stop ≤ content.length →
    Covers content start stop (m.span start stop) ∧
      ∀ lines, Covers content start stop lines →
        lines.1 ≤ (m.span start stop).1 ∧ (m.span start stop).2 ≤ lines.2
  /-- A greater range has a span that is no smaller. -/
  span_mono : ∀ start stop start' stop', start' ≤ start → start < stop → stop ≤ stop' →
    stop' ≤ content.length →
      (m.span start' stop').1 ≤ (m.span start stop).1 ∧
        (m.span start stop).2 ≤ (m.span start' stop').2

/-! ## Counting line feeds -/

theorem count_utf8EncodeChar {c : Char} (hc : c ≠ '\n') (k : Nat) :
    ((String.utf8EncodeChar c).take k).count lineFeed = 0 := by
  apply List.count_eq_zero_of_not_mem
  exact fun hmem => Text.lineFeed_notMem_utf8EncodeChar hc (List.mem_of_mem_take hmem)

theorem takeWhile_le_eq_nil {l : List Nat} {x : Nat} (h : ∀ y ∈ l, x < y) :
    l.takeWhile (· ≤ x) = [] := by
  cases l with
  | nil => rfl
  | cons y l =>
      have hlt := h y List.mem_cons_self
      rw [List.takeWhile_cons_of_neg (by simpa using hlt)]

/-- As many lines are broken up to an offset as there are line feeds before it. -/
theorem length_takeWhile_breaks (offset k : Nat) (s : List Char) :
    ((breaks offset s).takeWhile (· ≤ offset + k)).length = lineIn (bytes s) k := by
  induction s generalizing offset k with
  | nil => simp [breaks, lineIn, bytes]
  | cons c s ih =>
      rw [lineIn, Text.bytes_cons, breaks]
      split
      · rename_i hc
        rw [eq_of_beq hc, Text.utf8EncodeChar_lineFeed, List.singleton_append]
        cases k with
        | zero => simp
        | succ k =>
            have hbound : offset + (k + 1) = offset + 1 + k := by omega
            rw [hbound, List.takeWhile_cons_of_pos (by simp), List.length_cons, ih,
              List.take_succ_cons, List.count_cons_self, lineIn]
      · rename_i hc
        have hne : c ≠ '\n' := by simpa using hc
        rw [List.take_append, List.count_append, count_utf8EncodeChar hne, Nat.zero_add,
          String.length_utf8EncodeChar]
        rcases Nat.lt_or_ge k c.utf8Size with hk | hk
        · -- The offset stands inside the character, before all later breaks.
          have hnone : (breaks (offset + c.utf8Size) s).takeWhile (· ≤ offset + k) = [] := by
            apply takeWhile_le_eq_nil
            intro y hy
            have hbound := (mem_breaks_bounds hy).1
            omega
          rw [hnone, Nat.sub_eq_zero_of_le (Nat.le_of_lt hk)]
          rfl
        · have hbound : offset + k = offset + c.utf8Size + (k - c.utf8Size) := by omega
          rw [hbound, ih, lineIn]

theorem lineOf_ofChars (s : List Char) (o : Nat) :
    (ofChars s).lineOf o = lineIn (bytes s) (min o (bytes s).length) := by
  have hcount := length_takeWhile_breaks 0 (min o (bytes s).length) s
  rw [Nat.zero_add] at hcount
  rw [lineOf, ofChars, ← hcount, Text.length_bytes,
    List.takeWhile_cons_of_pos (by simp), List.length_cons, Nat.add_sub_cancel]

/-! ## Searching among the starts -/

/-- Of ordered numbers that split at a place, those up to a bound stand before the place. -/
theorem length_takeWhile_of_split {l : List Nat} {x i : Nat} (hi : i ≤ l.length)
    (hbelow : ∀ y ∈ l.take i, y ≤ x) (habove : ∀ y ∈ l.drop i, x < y) :
    (l.takeWhile (· ≤ x)).length = i := by
  have hdrop : (l.drop i).takeWhile (· ≤ x) = [] := takeWhile_le_eq_nil habove
  calc (l.takeWhile (· ≤ x)).length
      = ((l.take i ++ l.drop i).takeWhile (· ≤ x)).length := by rw [List.take_append_drop]
    _ = (l.take i).length := by
        rw [List.takeWhile_append_of_pos (by simpa using hbelow), hdrop, List.append_nil]
    _ = i := by rw [List.length_take, Nat.min_eq_left hi]

/-- The number at a place of ordered numbers splits them behind the place. -/
theorem length_takeWhile_getElem {l : List Nat} (h : l.Pairwise (· < ·)) {x i : Nat}
    (hx : l[i]? = some x) : (l.takeWhile (· ≤ x)).length = i + 1 := by
  rcases List.getElem?_eq_some_iff.1 hx with ⟨hi, rfl⟩
  have hsplit := h
  rw [← List.take_append_drop (i + 1) l] at hsplit
  rcases List.pairwise_append.1 hsplit with ⟨htake, _, hacross⟩
  have hlast : l[i] ∈ l.take (i + 1) := List.mem_take_iff_getElem.2 ⟨i, by omega, rfl⟩
  apply length_takeWhile_of_split hi
  · intro y hy
    rw [List.take_succ_eq_append_getElem hi] at htake hy
    rcases List.mem_append.1 hy with hy | hy
    · exact Nat.le_of_lt ((List.pairwise_append.1 htake).2.2 y hy _ (List.mem_singleton_self _))
    · exact Nat.le_of_eq (List.mem_singleton.1 hy)
  · exact fun y hy => hacross _ hlast y hy

variable {m : LineMap}

/-- A search among the starts that answers at all leads to the line of the offset. -/
theorem IsOrdered.lineOfAnswer_eq (h : m.IsOrdered) {o : Nat} {answer : Except Nat Nat}
    (hanswer : IsSearched m.starts (min o m.length) answer) :
    lineOfAnswer answer = m.lineOf o := by
  cases hanswer with
  | found hi => rw [lineOf, length_takeWhile_getElem h.starts hi]; rfl
  | missing hi hbelow habove =>
      have hcount := length_takeWhile_of_split hi (fun y hy => Nat.le_of_lt (hbelow y hy)) habove
      rw [lineOf, hcount]
      rfl

theorem lt_of_mem_dropWhile {l : List Nat} (h : l.Pairwise (· < ·)) {x y : Nat}
    (hy : y ∈ l.dropWhile (· ≤ x)) : x < y := by
  induction l with
  | nil => cases hy
  | cons z l ih =>
      rcases List.pairwise_cons.1 h with ⟨hz, hl⟩
      rcases Nat.lt_or_ge x z with hlt | hge
      · rw [List.dropWhile_cons_of_neg (by simpa using hlt)] at hy
        rcases List.mem_cons.1 hy with rfl | hy
        · exact hlt
        · exact Nat.lt_trans hlt (hz y hy)
      · rw [List.dropWhile_cons_of_pos (by simpa using hge)] at hy
        exact ih hl hy

theorem le_of_mem_takeWhile {l : List Nat} {x y : Nat} (hy : y ∈ l.takeWhile (· ≤ x)) : y ≤ x := by
  have hall := List.all_eq_true.1 (List.all_takeWhile (l := l) (p := (· ≤ x))) y hy
  simpa using hall

/-- There is something to answer for every number. -/
theorem exists_isSearched {l : List Nat} (h : l.Pairwise (· < ·)) (x : Nat) :
    ∃ answer, IsSearched l x answer := by
  by_cases hx : x ∈ l
  · rcases List.getElem?_of_mem hx with ⟨i, hi⟩
    exact ⟨.ok i, .found hi⟩
  · -- The numbers that are smaller stand in front of all others.
    have hsplit : l = l.takeWhile (· ≤ x) ++ l.dropWhile (· ≤ x) :=
      List.takeWhile_append_dropWhile.symm
    have hprefix : l.takeWhile (· ≤ x) <+: l := List.takeWhile_prefix _
    refine ⟨.error (l.takeWhile (· ≤ x)).length, .missing hprefix.length_le ?_ ?_⟩
    · intro y hy
      rw [← List.prefix_iff_eq_take.1 hprefix] at hy
      have hle := le_of_mem_takeWhile hy
      have hne : y ≠ x := fun heq => hx (heq ▸ hprefix.subset hy)
      omega
    · intro y hy
      have hdrop : (l.takeWhile (· ≤ x) ++ l.dropWhile (· ≤ x)).drop
          (l.takeWhile (· ≤ x)).length = l.dropWhile (· ≤ x) := List.drop_left ..
      rw [← hsplit] at hdrop
      rw [hdrop] at hy
      exact lt_of_mem_dropWhile h hy

/-! ## Positions -/

/-- Up to a later offset there are the line feeds up to an earlier one and those in between. -/
theorem lineIn_eq_add (content : List UInt8) {start stop : Nat} (h : start ≤ stop) :
    lineIn content stop = lineIn content start + (slice content start stop).count lineFeed := by
  have hstop : stop = start + (stop - start) := by omega
  calc lineIn content stop
      = (content.take (start + (stop - start))).count lineFeed := by rw [← hstop]; rfl
    _ = lineIn content start + (slice content start stop).count lineFeed := by
        rw [List.take_add, List.count_append]
        rfl

/-- The line of an offset begins at or before the offset. -/
theorem exists_start (s : List Char) (o : Nat) : ∃ start,
    (ofChars s).starts[(ofChars s).lineOf o]? = some start ∧
      start ≤ min o (ofChars s).length ∧ (ofChars s).lineOf start = (ofChars s).lineOf o := by
  have hordered := isOrdered_ofChars s
  have hreached : ∃ rest, (ofChars s).starts.takeWhile (· ≤ min o (ofChars s).length) = 0 :: rest :=
    ⟨_, List.takeWhile_cons_of_pos (by simp)⟩
  rcases hreached with ⟨rest, hrest⟩
  have hline : (ofChars s).lineOf o = rest.length := by
    rw [lineOf, hrest, List.length_cons, Nat.add_sub_cancel]
  -- The line begins at the last start that is reached.
  have hlast : rest.length < (0 :: rest).length := by simp
  have hprefix : 0 :: rest <+: (ofChars s).starts := by
    rw [← hrest]
    exact List.takeWhile_prefix _
  have hstart : (ofChars s).starts[rest.length]? = some (0 :: rest)[rest.length] := by
    rcases hprefix with ⟨later, hlater⟩
    rw [← hlater, List.getElem?_append_left hlast, List.getElem?_eq_getElem hlast]
  have hle : (0 :: rest)[rest.length] ≤ min o (ofChars s).length := by
    apply le_of_mem_takeWhile (l := (ofChars s).starts)
    rw [hrest]
    exact List.getElem_mem hlast
  refine ⟨_, by rw [hline]; exact hstart, hle, ?_⟩
  have hself : min (0 :: rest)[rest.length] (ofChars s).length = (0 :: rest)[rest.length] := by
    omega
  rw [hline, lineOf, hself, length_takeWhile_getElem hordered.starts hstart, Nat.add_sub_cancel]

theorem position_ofChars (s : List Char) (o : Nat) : ∃ start,
    (ofChars s).starts[((ofChars s).position o).line]? = some start ∧
      start + ((ofChars s).position o).character = min o (bytes s).length ∧
      lineFeed ∉ slice (bytes s) start (min o (bytes s).length) := by
  rcases exists_start s o with ⟨start, hstart, hle, hline⟩
  have hlength : (ofChars s).length = (bytes s).length := (Text.length_bytes s).symm
  rw [hlength] at hle
  refine ⟨start, hstart, ?_, ?_⟩
  · have hcharacter : ((ofChars s).position o).character = min o (bytes s).length - start := by
      rw [position, List.getD_eq_getElem?_getD, hstart, hlength]
      rfl
    omega
  · -- Both offsets stand in one line, so that no line ends between them.
    have hself : min start (bytes s).length = start := by omega
    rw [lineOf_ofChars, lineOf_ofChars, hself] at hline
    have hsum := lineIn_eq_add (bytes s) hle
    apply List.count_eq_zero.1
    omega

/-! ## Pieces -/

/-- A character that is no line feed stands in one piece with what follows it. -/
theorem splitOn_append {encoded : List UInt8} (h : lineFeed ∉ encoded) (content : List UInt8) :
    (encoded ++ content).splitOn lineFeed =
      (content.splitOn lineFeed).modifyHead (encoded ++ ·) := by
  induction encoded with
  | nil =>
      rw [List.nil_append]
      cases content.splitOn lineFeed <;> rfl
  | cons b encoded ih =>
      have hb : (b == lineFeed) = false := by
        simpa using fun heq : b = lineFeed => h (heq ▸ List.mem_cons_self)
      have hrest := ih fun hmem => h (List.mem_cons_of_mem b hmem)
      rw [List.cons_append, List.splitOn, List.splitOnP_cons_eq_if_modifyHead, hb, if_neg (by simp),
        ← List.splitOn, hrest]
      cases content.splitOn lineFeed <;> rfl

theorem splitOn_lineFeed (content : List UInt8) :
    (lineFeed :: content).splitOn lineFeed = [] :: content.splitOn lineFeed := by
  rw [List.splitOn, List.splitOnP_cons_eq_if_modifyHead, if_pos (by simp)]
  rfl

theorem slice_append {content : List UInt8} {start offset size : Nat} (h : start ≤ offset) :
    slice content start (offset + size) =
      slice content start offset ++ (content.drop offset).take size := by
  have hsize : offset + size - start = offset - start + size := by omega
  have hoffset : start + (offset - start) = offset := by omega
  rw [slice, slice, hsize, List.take_add, List.drop_drop, hoffset]

theorem slice_self (content : List UInt8) (offset : Nat) : slice content offset offset = [] := by
  rw [slice, Nat.sub_self, List.take_zero]

/-- From the start of a line on, the slices up to the ends of the lines are the pieces of what
follows an offset in that line, the first of them behind what stands before the offset. -/
theorem slices_eq_splitOn {content : List UInt8} {s : List Char} {start offset : Nat}
    (hstart : start ≤ offset) (hs : content.drop offset = bytes s)
    (hoffset : offset ≤ content.length) :
    List.zipWith (slice content) (start :: breaks offset s)
        (endsFrom content.length (start :: breaks offset s)) =
      ((bytes s).splitOn lineFeed).modifyHead (slice content start offset ++ ·) := by
  have hlength : content.length = offset + (bytes s).length := by
    rw [← hs, List.length_drop]
    omega
  induction s generalizing start offset with
  | nil =>
      -- The last line ends with the text.
      have hlast : max content.length start = offset := by
        simp only [bytes, List.flatMap_nil, List.length_nil] at hlength
        omega
      simp [breaks, endsFrom, hlast, bytes]
  | cons c s ih =>
      rw [Text.bytes_cons] at hs hlength ⊢
      rw [List.length_append, String.length_utf8EncodeChar] at hlength
      have hrest : content.drop (offset + c.utf8Size) = bytes s := by
        rw [← List.drop_drop, hs, ← String.length_utf8EncodeChar c]
        exact List.drop_left ..
      have htake : (content.drop offset).take c.utf8Size = String.utf8EncodeChar c := by
        rw [hs, ← String.length_utf8EncodeChar c]
        exact List.take_left ..
      rw [breaks]
      split
      · rename_i hc
        have hfeed : c = '\n' := eq_of_beq hc
        have hsize : c.utf8Size = 1 := by
          rw [hfeed]
          decide
        rw [hsize] at hrest hlength
        -- The line ends here, and the next one begins behind the line feed.
        have hnext := ih (Nat.le_refl _) hrest (by omega) (by omega)
        rw [endsFrom, List.zipWith_cons_cons, Nat.add_sub_cancel, hnext, slice_self, hfeed,
          Text.utf8EncodeChar_lineFeed, List.singleton_append, splitOn_lineFeed]
        cases (bytes s).splitOn lineFeed <;> simp
      · rename_i hc
        have hfeed : c ≠ '\n' := by simpa using hc
        have hnext := ih (Nat.le_add_right_of_le hstart) hrest (by omega) (by omega)
        rw [hnext, splitOn_append (Text.lineFeed_notMem_utf8EncodeChar hfeed),
          slice_append hstart, htake]
        cases (bytes s).splitOn lineFeed <;> simp

theorem pieces_ofChars (s : List Char) :
    List.zipWith (slice (bytes s)) (ofChars s).starts (ofChars s).ends =
      (bytes s).splitOn lineFeed := by
  have hdrop : (bytes s).drop 0 = bytes s := List.drop_zero
  have hslices := slices_eq_splitOn (Nat.le_refl 0) hdrop (Nat.zero_le _)
  rw [slice_self, Text.length_bytes] at hslices
  rw [ends, ofChars, hslices]
  cases (bytes s).splitOn lineFeed <;> rfl

/-! ## Spans -/

theorem covers_span {s : List Char} {start stop : Nat} (h : start < stop)
    (hstop : stop ≤ (bytes s).length) :
    Covers (bytes s) start stop ((ofChars s).span start stop) ∧
      ∀ lines, Covers (bytes s) start stop lines →
        lines.1 ≤ ((ofChars s).span start stop).1 ∧
          ((ofChars s).span start stop).2 ≤ lines.2 := by
  have hline : ∀ i, i < stop → (ofChars s).lineOf i = lineIn (bytes s) i := by
    intro i hi
    rw [lineOf_ofChars, Nat.min_eq_left (by omega)]
  have hmono : (ofChars s).lineOf start ≤ (ofChars s).lineOf (stop - 1) :=
    lineOf_mono _ (by omega)
  have hspan : (ofChars s).span start stop =
      ((ofChars s).lineOf start, (ofChars s).lineOf (stop - 1) + 1) := by
    rw [span, if_neg (by omega), Nat.max_eq_left hmono]
  rw [hspan]
  constructor
  · intro i hfirst hlast
    have hbelow : (ofChars s).lineOf start ≤ (ofChars s).lineOf i := lineOf_mono _ hfirst
    have habove : (ofChars s).lineOf i ≤ (ofChars s).lineOf (stop - 1) :=
      lineOf_mono _ (by omega)
    rw [← hline i hlast]
    exact ⟨hbelow, Nat.lt_succ_of_le habove⟩
  · intro lines hlines
    -- The first and the last byte of the range need lines of their own.
    have hfirst := (hlines start (Nat.le_refl _) h).1
    have hlast := (hlines (stop - 1) (by omega) (by omega)).2
    rw [← hline _ (by omega)] at hfirst hlast
    exact ⟨hfirst, hlast⟩

/-- The line map of a text, which gives the line marks of its surroundings, tells lines as the
bytes of the text do. -/
theorem readsLines_ofString (source : String) :
    (ofString source).ReadsLines source.toUTF8.data.toList ∧
      ∀ env : Env, (env.withLineMarks source).lineStarts = some (ofString source).starts ∧
        (env.withLineMarks source).lineEnds = some (ofString source).ends := by
  rw [← Text.bytes_toList]
  refine ⟨?_, fun env => ⟨rfl, rfl⟩⟩
  have hordered : (ofString source).IsOrdered := isOrdered_ofChars source.toList
  refine
    { length := (Text.length_bytes _).symm
      lineOf := lineOf_ofChars source.toList
      search := fun o =>
        ⟨exists_isSearched hordered.starts _, fun answer => hordered.lineOfAnswer_eq⟩
      position := fun o => ⟨rfl, position_ofChars source.toList o⟩
      pieces := ⟨(length_endsFrom _ _).symm, pieces_ofChars source.toList⟩
      span := fun start stop => covers_span
      span_mono := ?_ }
  intro start stop start' stop' hstart h hstop hlength
  have hinner := covers_span (s := source.toList) h (Nat.le_trans hstop hlength)
  have houter := covers_span (s := source.toList) (Nat.lt_of_le_of_lt hstart
    (Nat.lt_of_lt_of_le h hstop)) hlength
  -- The greater span covers the smaller range too.
  apply hinner.2
  intro i hfirst hlast
  exact houter.1 i (Nat.le_trans hstart hfirst) (Nat.lt_of_lt_of_le hlast hstop)

end LineMap
end RenderForest
