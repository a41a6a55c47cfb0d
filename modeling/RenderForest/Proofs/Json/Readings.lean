import RenderForest.Proofs.Json.Reordered
/-!
# Readings — what decoders make of values

A decoder is described from both sides: by the values that it reads, each with what it reads it
as, and by what all that it yields has in common.  The parts of a decoder give both descriptions
of the whole.  This file defines:

* `Decoder.Reads`, that a decoder reads a value as something, in whatever order fields stand;
* `Decoder.Yields`, that all that a decoder yields has a property;
* `Field.IsIndependent` and `AreIndependent`, that the fields of a record may come in any order;

and shows in `storeFields_perm` that independent fields make the same record in every order, in
`record_array` that a list of the first fields is read as the object that has them, and in
`reads_record` how a record is read from the values of its fields.
-/

namespace RenderForest
namespace Json
namespace Decoder

open Value

variable {α β σ : Type}

/-- The decoder reads the value `w` as `a`, in whatever order the fields of its objects stand, if
there are levels enough. -/
def Reads (dec : Decoder α) (w : Value) (a : α) : Prop :=
  ∀ (v : Value) (levels : Nat), v.Reorders w → w.height < levels → dec levels v.draft = .ok a

/-- All that the decoder yields has the property. -/
def Yields (dec : Decoder α) (P : α → Prop) : Prop :=
  ∀ (levels : Nat) (d : Draft) (a : α), dec levels d = .ok a → P a

/-! ## Parts of a reading -/

theorem enter_of_lt {levels : Nat} (h : 1 < levels) (k : Nat → Except Error α) :
    enter levels k = k (levels - 1) := by
  rcases levels with _ | _ | n
  · omega
  · omega
  · rfl

theorem enter_eq_ok {levels : Nat} {k : Nat → Except Error α} {a : α}
    (h : enter levels k = .ok a) : k (levels - 1) = .ok a := by
  rcases levels with _ | _ | n
  · cases h
  · cases h
  · exact h

theorem map_eq_ok {f : α → β} {x : Except Error α} {b : β} :
    x.map f = .ok b ↔ ∃ a, x = .ok a ∧ f a = b := by
  cases x with
  | error e => simp [Except.map]
  | ok a => simp [Except.map]

theorem eachItem_eq_ok {γ : Type} {read : γ → Except Error α} {items : List γ} {as : List α} :
    eachItem read items = .ok as ↔ List.Forall₂ (fun d a => read d = .ok a) items as := by
  induction items generalizing as with
  | nil => simp [eachItem, eq_comm]
  | cons d rest ih =>
      rw [eachItem, List.forall₂_cons_left_iff]
      cases hd : read d with
      | error e => simp
      | ok a =>
          simp only [map_eq_ok, ih, Except.ok.injEq]
          constructor
          · rintro ⟨as', has', rfl⟩
            exact ⟨a, as', rfl, has', rfl⟩
          · rintro ⟨_, as', rfl, has', rfl⟩
            exact ⟨as', has', rfl⟩

theorem eq_ok_of_decodeText {dec : Decoder α} {text : String} {a : α}
    (h : decodeText dec text = .ok a) : ∃ d, dec levelLimit d = .ok a := by
  refine ⟨(Draft.read text).1, ?_⟩
  unfold decodeText at h
  split at h
  rename_i draft more hread
  rw [hread]
  split at h
  · cases h
  · rename_i b hb
    split at h
    · cases h
    · rw [hb, Except.ok.inj h]

/-! ## Values that are read -/

theorem reads_bool (b : Bool) : bool.Reads (.bool b) b := by
  intro v levels h _
  rw [reorders_bool.1 h]
  rfl

theorem reads_string (s : String) : string.Reads (.string s) s := by
  intro v levels h _
  rw [reorders_string.1 h]
  rfl

theorem reads_bounded {low high n : Int} (hlow : low ≤ n) (hhigh : n ≤ high) (name : String) :
    (bounded low high name).Reads (.number (.int n)) n := by
  intro v levels h _
  rw [reorders_number.1 h]
  simp [draft, bounded, hlow, hhigh]

theorem reads_natural {n : Nat} (h : n ≤ 18446744073709551615) :
    natural.Reads (.ofNat n) n := by
  intro v levels hv hlevels
  have hhigh : (n : Int) ≤ 18446744073709551615 := by omega
  have hbounded := reads_bounded (Int.natCast_nonneg n) hhigh "usize" v levels hv hlevels
  rw [natural, hbounded]
  rfl

theorem reads_value {w : Value} (h : w.IsSorted) : value.Reads w w :=
  fun v levels hv hlevels => valueAt_of_reorders v w levels hv h hlevels

theorem draft_eq_null {v : Value} (h : v.draft = .null) : v = .null := by
  cases v <;> simp [draft] at h ⊢

theorem reads_nullable_null (dec : Decoder α) : (nullable dec).Reads .null none := by
  intro v levels h _
  rw [reorders_null.1 h]
  rfl

theorem Reads.nullable {dec : Decoder α} {w : Value} {a : α} (h : dec.Reads w a)
    (hw : w ≠ .null) : (nullable dec).Reads w (some a) := by
  intro v levels hv hlevels
  have hdraft : v.draft ≠ .null := by
    intro hnull
    rw [draft_eq_null hnull] at hv
    exact hw hv
  unfold Decoder.nullable
  split
  · rename_i hnull
    exact absurd hnull hdraft
  · rw [h v levels hv hlevels]
    rfl

theorem Reads.orDefault [Inhabited α] {dec : Decoder α} {w : Value} {a : α} (h : dec.Reads w a)
    (hw : w ≠ .null) : (orDefault dec).Reads w a := by
  intro v levels hv hlevels
  rw [Decoder.orDefault, h.nullable hw v levels hv hlevels]
  rfl

theorem reads_list {dec : Decoder α} {ws : List Value} {as : List α}
    (h : List.Forall₂ dec.Reads ws as) : (list dec).Reads (.array ws) as := by
  intro v levels hv hlevels
  rcases reorders_array.1 hv with ⟨vs, rfl, hvs⟩
  have hlt : 1 < levels := by
    rw [height] at hlevels
    omega
  have hitems : eachItem (dec (levels - 1)) (draftItems vs) = .ok as := by
    rw [eachItem_eq_ok, draftItems_eq, List.forall₂_map_left_iff]
    have hheight : ∀ w ∈ ws, w.height < levels - 1 := by
      intro w hw
      have := height_lt_array hw
      omega
    -- The induction is on the items, for which the height of the list says too much.
    clear hv hlevels
    induction hvs generalizing as with
    | nil =>
        cases h
        exact List.Forall₂.nil
    | cons hv hvs ih =>
        rcases List.forall₂_cons_left_iff.1 h with ⟨a, as', ha, has', rfl⟩
        rcases List.forall_mem_cons.1 hheight with ⟨hw, hws⟩
        exact List.Forall₂.cons (ha _ _ hv hw) (ih has' hws)
  rw [draft, list]
  simp only
  rw [enter_of_lt hlt, hitems]

theorem Reads.pair {first : Decoder α} {second : Decoder β} {w w' : Value} {a : α} {b : β}
    (h : first.Reads w a) (h' : second.Reads w' b) :
    (pair first second).Reads (.array [w, w']) (a, b) := by
  intro v levels hv hlevels
  rcases reorders_array.1 hv with ⟨vs, rfl, hvs⟩
  rcases List.forall₂_cons_right_iff.1 hvs with ⟨v₁, rest, hv₁, hrest, rfl⟩
  rcases List.forall₂_cons_right_iff.1 hrest with ⟨v₂, rest, hv₂, hnil, rfl⟩
  cases hnil
  have hw : w.height < (Value.array [w, w']).height := height_lt_array List.mem_cons_self
  have hw' : w'.height < (Value.array [w, w']).height :=
    height_lt_array (List.mem_cons_of_mem _ List.mem_cons_self)
  have hfirst := h v₁ (levels - 1) hv₁ (by omega)
  have hsecond := h' v₂ (levels - 1) hv₂ (by omega)
  rw [draft, draftItems_eq, Decoder.pair]
  simp only [List.map_cons, List.map_nil]
  rw [enter_of_lt (by omega)]
  simp only [hfirst, hsecond]
  rfl

/-! ## What is yielded -/

theorem yields_true (dec : Decoder α) : dec.Yields fun _ => True :=
  fun _ _ _ _ => trivial

theorem yields_bounded (low high : Int) (name : String) :
    (bounded low high name).Yields fun n => low ≤ n ∧ n ≤ high := by
  intro levels d n h
  unfold bounded at h
  split at h
  · split at h
    · rename_i hn
      cases h
      simpa using hn
    · cases h
  · cases h

theorem yields_natural : natural.Yields fun n => n ≤ 18446744073709551615 := by
  intro levels d n h
  rcases map_eq_ok.1 h with ⟨m, hm, rfl⟩
  have := yields_bounded _ _ _ levels d m hm
  omega

theorem yields_value : value.Yields IsSorted :=
  fun levels d v h => isSorted_of_valueAt levels d v h

theorem Yields.nullable {dec : Decoder α} {P : α → Prop} (h : dec.Yields P) :
    (nullable dec).Yields fun o => ∀ a, o = some a → P a := by
  intro levels d o ho a ha
  unfold Decoder.nullable at ho
  split at ho
  · cases ho
    cases ha
  · rcases map_eq_ok.1 ho with ⟨b, hb, heq⟩
    rw [ha] at heq
    cases heq
    exact h levels d a hb

theorem Yields.list {dec : Decoder α} {P : α → Prop} (h : dec.Yields P) :
    (list dec).Yields fun as => ∀ a ∈ as, P a := by
  intro levels d as has
  unfold Decoder.list at has
  split at has
  · have hinner := enter_eq_ok has
    split at hinner
    · cases hinner
    · rename_i values hvalues
      split at hinner
      · cases hinner
      · cases hinner
        intro a ha
        rcases List.forall₂_iff_get.1 (eachItem_eq_ok.1 hvalues) with ⟨_, hget⟩
        rcases List.mem_iff_get.1 ha with ⟨i, rfl⟩
        exact h _ _ _ (hget i (by omega) i.2)
  · cases has

theorem Yields.pair {first : Decoder α} {second : Decoder β} {P : α → Prop} {Q : β → Prop}
    (h : first.Yields P) (h' : second.Yields Q) :
    (pair first second).Yields fun p => P p.1 ∧ Q p.2 := by
  intro levels d p hp
  unfold Decoder.pair at hp
  split at hp
  · have hinner := enter_eq_ok hp
    split at hinner
    · cases hinner
    · split at hinner
      · cases hinner
      · rename_i a ha
        split at hinner
        · cases hinner
        · split at hinner
          · cases hinner
          · rename_i b hb
            rcases map_eq_ok.1 hinner with ⟨_, _, rfl⟩
            exact ⟨h _ _ _ ha, h' _ _ _ hb⟩
  · cases hp

/-! ## Fields of a record -/

/-- Two fields may be stored one after the other in either order. -/
def Field.Commutes (f g : Field σ) : Prop :=
  ∀ (levels : Nat) (d e : Draft) (s s₁ s₂ : σ), f.store levels d s = .ok s₁ →
    g.store levels e s₁ = .ok s₂ →
      ∃ s₃, g.store levels e s = .ok s₃ ∧ f.store levels d s₃ = .ok s₂

/-- Two fields have names of their own and may be stored in any order. -/
structure Field.IsIndependent (f g : Field σ) : Prop where
  name_ne : f.name ≠ g.name
  commutes : f.Commutes g
  commutes' : g.Commutes f

/-- Each two fields of the record are independent. -/
def AreIndependent (known : List (Field σ)) : Prop :=
  known.Pairwise Field.IsIndependent

theorem commutes_of {n m : String} {dec : Decoder α} {dec' : Decoder β} {set : α → σ → σ}
    {set' : β → σ → σ} (h : ∀ a b s, set a (set' b s) = set' b (set a s)) :
    (Field.of n dec set).Commutes (Field.of m dec' set') := by
  intro levels d e s s₁ s₂ h₁ h₂
  rcases map_eq_ok.1 h₁ with ⟨a, ha, rfl⟩
  rcases map_eq_ok.1 h₂ with ⟨b, hb, rfl⟩
  exact ⟨set' b s, map_eq_ok.2 ⟨b, hb, rfl⟩, map_eq_ok.2 ⟨a, ha, h a b s⟩⟩

theorem independent_of {n m : String} {dec : Decoder α} {dec' : Decoder β} {set : α → σ → σ}
    {set' : β → σ → σ} (hne : n ≠ m) (h : ∀ a b s, set a (set' b s) = set' b (set a s)) :
    (Field.of n dec set).IsIndependent (Field.of m dec' set') :=
  ⟨hne, commutes_of h, commutes_of fun b a s => (h a b s).symm⟩

section Independent

variable {known : List (Field σ)} {levels : Nat}

theorem AreIndependent.commutes (h : AreIndependent known) {f g : Field σ} (hf : f ∈ known)
    (hg : g ∈ known) (hne : f.name ≠ g.name) : f.Commutes g := by
  induction known with
  | nil => cases hf
  | cons first rest ih =>
      rcases List.pairwise_cons.1 h with ⟨hfirst, hrest⟩
      -- One of the two is the first field, or both stand behind it.
      rcases List.mem_cons.1 hf with hf' | hf'
      · rcases List.mem_cons.1 hg with hg' | hg'
        · rw [hf', hg'] at hne
          exact absurd rfl hne
        · exact hf' ▸ (hfirst g hg').commutes
      · rcases List.mem_cons.1 hg with hg' | hg'
        · exact hg' ▸ (hfirst f hf').commutes'
        · exact ih hrest hf' hg'

theorem AreIndependent.nodup (h : AreIndependent known) : (known.map Field.name).Nodup :=
  List.pairwise_map.2 (h.imp Field.IsIndependent.name_ne)

theorem find?_of_mem (hnodup : (known.map Field.name).Nodup) {f : Field σ} (hf : f ∈ known) :
    known.find? (·.name == f.name) = some f := by
  induction known with
  | nil => cases hf
  | cons g rest ih =>
      rcases List.nodup_cons.1 hnodup with ⟨hg, hrest⟩
      rcases List.mem_cons.1 hf with rfl | hf
      · simp
      · have hne : (g.name == f.name) = false := by
          rw [beq_eq_false_iff_ne]
          intro heq
          exact hg (heq ▸ List.mem_map_of_mem hf)
        rw [List.find?_cons, hne, ih hrest hf]

/-- A field that is read is unknown and skipped, or is known, new and stored. -/
theorem storeFields_cons_eq_ok {seen : List String} {n : String} {d : Draft}
    {rest : List (String × Draft)} {s s' : σ} :
    storeFields known levels seen ((n, d) :: rest) s = .ok s' ↔
      (known.find? (·.name == n) = none ∧ skip d = .ok () ∧
        storeFields known levels seen rest s = .ok s') ∨
      ∃ f s₁, known.find? (·.name == n) = some f ∧ n ∉ seen ∧ f.store levels d s = .ok s₁ ∧
        storeFields known levels (n :: seen) rest s₁ = .ok s' := by
  rw [storeFields]
  cases hfind : known.find? (·.name == n) with
  | none =>
      cases hskip : skip d with
      | error e => simp
      | ok u => simp
  | some f =>
      by_cases hseen : n ∈ seen
      · simp [hseen]
      · cases hstore : f.store levels d s with
        | error e => simp [hseen, hstore]
        | ok s₁ => simp [hseen, hstore]

/-- Of the fields that were seen only the names matter. -/
theorem storeFields_congr_seen {seen seen' : List String} (h : ∀ n, n ∈ seen ↔ n ∈ seen')
    (fields : List (String × Draft)) (s : σ) :
    storeFields known levels seen fields s = storeFields known levels seen' fields s := by
  induction fields generalizing seen seen' s with
  | nil => rfl
  | cons e rest ih =>
      rcases e with ⟨n, d⟩
      have hcontains : seen.contains n = seen'.contains n := by
        rw [Bool.eq_iff_iff, List.contains_iff_mem, List.contains_iff_mem, h]
      have hcons : ∀ m, m ∈ n :: seen ↔ m ∈ n :: seen' := by
        intro m
        rw [List.mem_cons, List.mem_cons, h]
      rw [storeFields, storeFields, hcontains, ih h]
      simp only [ih hcons]

/-- Independent fields make the same record in every order. -/
theorem storeFields_perm (hknown : AreIndependent known) {fields fields' : List (String × Draft)}
    (hperm : fields.Perm fields') {seen : List String} {s s' : σ}
    (h : storeFields known levels seen fields s = .ok s') :
    storeFields known levels seen fields' s = .ok s' := by
  induction hperm generalizing seen s with
  | nil => exact h
  | cons e _ ih =>
      rcases storeFields_cons_eq_ok.1 h with ⟨hf, hd, hrest⟩ | ⟨f, s₁, hf, hn, hd, hrest⟩
      · exact storeFields_cons_eq_ok.2 (.inl ⟨hf, hd, ih hrest⟩)
      · exact storeFields_cons_eq_ok.2 (.inr ⟨f, s₁, hf, hn, hd, ih hrest⟩)
  | swap e₂ e₁ rest =>
      -- Both may be unknown, either may be, or both are known and commute.
      rcases storeFields_cons_eq_ok.1 h with ⟨hf, hd, h⟩ | ⟨f, s₁, hf, hn, hd, h⟩
      · rcases storeFields_cons_eq_ok.1 h with ⟨hg, he, h⟩ | ⟨g, s₂, hg, hm, he, h⟩
        · exact storeFields_cons_eq_ok.2
            (.inl ⟨hg, he, storeFields_cons_eq_ok.2 (.inl ⟨hf, hd, h⟩)⟩)
        · exact storeFields_cons_eq_ok.2
            (.inr ⟨g, s₂, hg, hm, he, storeFields_cons_eq_ok.2 (.inl ⟨hf, hd, h⟩)⟩)
      · rcases storeFields_cons_eq_ok.1 h with ⟨hg, he, h⟩ | ⟨g, s₂, hg, hm, he, h⟩
        · exact storeFields_cons_eq_ok.2
            (.inl ⟨hg, he, storeFields_cons_eq_ok.2 (.inr ⟨f, s₁, hf, hn, hd, h⟩)⟩)
        · rw [List.mem_cons, not_or] at hm
          have hfname : f.name = e₁.1 := by simpa using List.find?_some hf
          have hgname : g.name = e₂.1 := by simpa using List.find?_some hg
          have hne : f.name ≠ g.name := by
            rw [hfname, hgname]
            exact Ne.symm hm.1
          rcases hknown.commutes (List.mem_of_find?_eq_some hf) (List.mem_of_find?_eq_some hg) hne
            levels e₁.2 e₂.2 s s₁ s₂ hd he with ⟨s₃, hs₃, hs₂⟩
          have hn' : e₁.1 ∉ e₂.1 :: seen := by
            rw [List.mem_cons, not_or]
            exact ⟨Ne.symm hm.1, hn⟩
          have hseen : ∀ n, n ∈ e₂.1 :: e₁.1 :: seen ↔ n ∈ e₁.1 :: e₂.1 :: seen := by
            intro n
            simp only [List.mem_cons]
            exact or_left_comm
          rw [storeFields_congr_seen hseen] at h
          exact storeFields_cons_eq_ok.2
            (.inr ⟨g, s₃, hg, hm.2, hs₃, storeFields_cons_eq_ok.2 (.inr ⟨f, s₂, hf, hn', hs₂, h⟩)⟩)
  | trans _ _ ih ih' => exact ih' (ih h)

/-- The first fields of a record in their own order are stored as the items of a list are. -/
theorem storeFields_zip (hnodup : (known.map Field.name).Nodup) {rest : List (Field σ)}
    (hrest : rest.Sublist known) {items : List Draft} (hlength : items.length ≤ rest.length)
    {seen : List String} (hseen : ∀ f ∈ rest, f.name ∉ seen) (s : σ) :
    storeFields known levels seen ((rest.map Field.name).zip items) s =
      storeItems levels none rest items s := by
  induction rest generalizing items seen s with
  | nil =>
      rw [List.eq_nil_of_length_eq_zero (Nat.le_zero.1 hlength)]
      rfl
  | cons f rest ih =>
      cases items with
      | nil => rfl
      | cons d items =>
          have hf : known.find? (·.name == f.name) = some f :=
            find?_of_mem hnodup (hrest.subset List.mem_cons_self)
          have hcontains : seen.contains f.name = false := by
            simpa using hseen f List.mem_cons_self
          have hseen' : ∀ g ∈ rest, g.name ∉ f.name :: seen := by
            intro g hg hmem
            have hnames := hnodup.sublist (hrest.map Field.name)
            rw [List.map_cons, List.nodup_cons] at hnames
            rcases List.mem_cons.1 hmem with heq | hmem
            · exact hnames.1 (heq ▸ List.mem_map_of_mem hg)
            · exact hseen g (List.mem_cons_of_mem f hg) hmem
          -- The name is known and new, so that the field stores its item.
          have htail := ih ((List.sublist_cons_self f rest).trans hrest)
            (Nat.le_of_succ_le_succ hlength) hseen'
          rw [List.map_cons, List.zip_cons_cons, storeFields, storeItems, hf]
          simp only [hcontains, Bool.false_eq_true, if_false]
          cases f.store levels d s with
          | error e => rfl
          | ok s₁ => exact htail s₁

end Independent

/-! ## Whole records -/

section Record

variable {known : List (Field σ)} {name : String} {initial : σ}

/-- A list of the first fields of a record is read as the object that has them. -/
theorem record_array (name : String) (initial : σ) (hknown : AreIndependent known)
    {items : List Draft} (hlength : items.length ≤ known.length) (levels : Nat) :
    record name known initial levels (.array items none) =
      record name known initial levels (.object ((known.map Field.name).zip items) none) := by
  rcases levels with _ | _ | n
  · rfl
  · rfl
  · rw [record, record]
    simp only [enter]
    rw [storeFields_zip hknown.nodup (List.Sublist.refl _) hlength fun _ _ => List.not_mem_nil]
    cases storeItems (n + 1) none known items initial <;> rfl

/-- The fields of a record may stand in any order. -/
theorem record_perm (hknown : AreIndependent known) {fields fields' : List (String × Draft)}
    (hperm : fields.Perm fields') {levels : Nat} {s : σ}
    (h : record name known initial levels (.object fields none) = .ok s) :
    record name known initial levels (.object fields' none) = .ok s := by
  rcases levels with _ | _ | n
  · cases h
  · cases h
  · rw [record] at h ⊢
    simp only [enter] at h ⊢
    cases hfields : storeFields known (n + 1) [] fields initial with
    | error e =>
        rw [hfields] at h
        cases h
    | ok s' =>
        rw [hfields] at h
        rw [storeFields_perm hknown hperm hfields]
        exact h

/-- The field takes the value `w` and changes the record by `g`. -/
def Field.Takes (f : Field σ) (w : Value) (g : σ → σ) : Prop :=
  ∀ (v : Value) (levels : Nat) (s : σ), v.Reorders w → w.height < levels →
    f.store levels v.draft s = .ok (g s)

theorem takes_of {dec : Decoder α} {w : Value} {a : α} (h : dec.Reads w a) (n : String)
    (set : α → σ → σ) : (Field.of n dec set).Takes w (set a) := by
  intro v levels s hv hlevels
  exact map_eq_ok.2 ⟨a, h v levels hv hlevels, rfl⟩

theorem storeItems_of_takes {levels : Nat} {parts : List (Value × (σ → σ))}
    (h : List.Forall₂ (fun f p => f.Takes p.1 p.2) known parts) {vs : List Value}
    (hvs : List.Forall₂ (fun v p => v.Reorders p.1) vs parts)
    (hheight : ∀ p ∈ parts, p.1.height < levels) (s : σ) :
    storeItems levels none known (vs.map draft) s = .ok (parts.foldl (fun s p => p.2 s) s) := by
  induction h generalizing vs s with
  | nil =>
      cases hvs
      rfl
  | cons hf _ ih =>
      rcases List.forall₂_cons_right_iff.1 hvs with ⟨v, vs', hv, hvs', rfl⟩
      rcases List.forall_mem_cons.1 hheight with ⟨hp, hparts⟩
      rw [List.map_cons, storeItems, hf v levels s hv hp]
      exact ih hvs' hparts _

theorem forall₂_zip {names : List String} {ws : List Value} (hlength : names.length = ws.length)
    {met : List (String × Value)} (h : List.Forall₂ FieldReorders met (names.zip ws)) :
    ∃ vs, met = names.zip vs ∧ List.Forall₂ Reorders vs ws := by
  induction names generalizing ws met with
  | nil =>
      cases h
      rw [List.eq_nil_of_length_eq_zero hlength.symm]
      exact ⟨[], rfl, List.Forall₂.nil⟩
  | cons n names ih =>
      cases ws with
      | nil => cases hlength
      | cons w ws =>
          rcases List.forall₂_cons_right_iff.1 h with ⟨⟨m, v⟩, met', ⟨rfl, hv⟩, hmet', rfl⟩
          rcases ih (Nat.succ.inj hlength) hmet' with ⟨vs, rfl, hvs⟩
          exact ⟨v :: vs, rfl, List.Forall₂.cons hv hvs⟩

/-- A record is read from an object that has a value for each field. -/
theorem reads_record (name : String) (initial : σ) (hknown : AreIndependent known)
    {parts : List (Value × (σ → σ))}
    (h : List.Forall₂ (fun f p => f.Takes p.1 p.2) known parts) :
    (record name known initial).Reads
      (.object ((known.map Field.name).zip (parts.map Prod.fst)))
      (parts.foldl (fun s p => p.2 s) initial) := by
  intro v levels hv hlevels
  rcases reorders_object.1 hv with ⟨vs, met, rfl, hperm, hmet⟩
  have hlength : (known.map Field.name).length = (parts.map Prod.fst).length := by
    rw [List.length_map, List.length_map, h.length_eq]
  have hheight : ∀ p ∈ parts, p.1.height < levels - 1 := by
    intro p hp
    have hmem : p.1 ∈ ((known.map Field.name).zip (parts.map Prod.fst)).map Prod.snd := by
      rw [List.map_snd_zip (Nat.le_of_eq hlength.symm)]
      exact List.mem_map_of_mem hp
    rcases List.mem_map.1 hmem with ⟨e, he, heq⟩
    have := height_lt_object he
    rw [heq] at this
    omega
  have hlt : 1 < levels := by
    rw [height] at hlevels
    omega
  -- The fields are put into the order of the record, where they are stored as items are.
  rcases forall₂_zip hlength hmet with ⟨ws, rfl, hws⟩
  have hitems := storeItems_of_takes h (List.forall₂_map_right_iff.1 hws) hheight initial
  have hws' : (ws.map draft).length ≤ known.length := by
    rw [List.length_map, hws.length_eq, ← hlength, List.length_map]
  rw [draft, draftFields_eq]
  refine record_perm hknown (hperm.symm.map _) ?_
  have hzip : ((known.map Field.name).zip ws).map (fun e => (e.1, e.2.draft)) =
      (known.map Field.name).zip (ws.map draft) := by
    rw [List.zip_map_right]
    rfl
  rw [hzip, ← record_array name initial hknown hws', record]
  rw [enter_of_lt hlt, hitems]

/-- Storing a value in the field keeps the property of the record. -/
def Field.Keeps (f : Field σ) (P : σ → Prop) : Prop :=
  ∀ (levels : Nat) (d : Draft) (s s' : σ), P s → f.store levels d s = .ok s' → P s'

theorem keeps_of {dec : Decoder α} {Q : α → Prop} (hdec : dec.Yields Q) {set : α → σ → σ}
    {P : σ → Prop} (hset : ∀ a s, Q a → P s → P (set a s)) (n : String) :
    (Field.of n dec set).Keeps P := by
  intro levels d s s' hs h
  rcases map_eq_ok.1 h with ⟨a, ha, rfl⟩
  exact hset a s (hdec levels d a ha) hs

theorem keeps_storeFields {P : σ → Prop} (h : ∀ f ∈ known, f.Keeps P) {levels : Nat}
    {fields : List (String × Draft)} {seen : List String} {s s' : σ} (hs : P s)
    (hstore : storeFields known levels seen fields s = .ok s') : P s' := by
  induction fields generalizing seen s with
  | nil =>
      cases hstore
      exact hs
  | cons e rest ih =>
      rcases storeFields_cons_eq_ok.1 hstore with ⟨_, _, hrest⟩ | ⟨f, s₁, hf, _, hd, hrest⟩
      · exact ih hs hrest
      · exact ih (h f (List.mem_of_find?_eq_some hf) levels e.2 s s₁ hs hd) hrest

theorem keeps_storeItems {P : σ → Prop} (h : ∀ f ∈ known, f.Keeps P) {levels : Nat}
    {stop : Option Error} {items : List Draft} {s s' : σ} (hs : P s)
    (hstore : storeItems levels stop known items s = .ok s') : P s' := by
  induction known generalizing items s with
  | nil =>
      rcases map_eq_ok.1 hstore with ⟨_, _, rfl⟩
      exact hs
  | cons f rest ih =>
      rcases List.forall_mem_cons.1 h with ⟨hf, hrest⟩
      cases items with
      | nil =>
          rw [storeItems.eq_def] at hstore
          cases stop with
          | none =>
              cases hstore
              exact hs
          | some e => cases hstore
      | cons d items =>
          rw [storeItems] at hstore
          split at hstore
          · cases hstore
          · rename_i s₁ hd
            exact ih hrest (hf levels d s s₁ hs hd) hstore

/-- What the initial record has, and each field keeps, all records have that are read. -/
theorem yields_record {P : σ → Prop} (hinitial : P initial) (h : ∀ f ∈ known, f.Keeps P) :
    (record name known initial).Yields P := by
  intro levels d s hs
  unfold record at hs
  split at hs
  · have hinner := enter_eq_ok hs
    split at hinner
    · cases hinner
    · rename_i s' hstore
      split at hinner
      · cases hinner
      · cases hinner
        exact keeps_storeFields h hinitial hstore
  · exact keeps_storeItems h hinitial (enter_eq_ok hs)
  · cases hs

end Record

end Decoder
end Json
end RenderForest
