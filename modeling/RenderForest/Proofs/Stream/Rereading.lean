import Mathlib
import RenderForest.Proofs.Json.Readings
import RenderForest.Proofs.Stream.Neutralized
import RenderForest.Stream.Codec
/-!
# Rereading — written tokens are read back

A token that was read is written as an object of all its fields, and reading that object gives
the token again, whatever the order in which the fields stand; a token may also be given as the
list of its first fields.  This file defines:

* `TokenMeta.IsReadable` and `Token.IsReadable`, what holds of all that is read;

and shows in `Token.yields_decoderWithin` that tokens are readable at every depth, in
`Token.reads_decoderWithin` that a readable token is read from what is written of it, and in
`Token.reread` what follows for the tokens of a stream.
-/

namespace RenderForest

open Json Decoder

/-! ## What is read -/

/-- Extra data as it comes from a text: without a node, and sorted at every depth. -/
structure TokenMeta.IsReadable (m : TokenMeta) : Prop where
  node_eq : m.node = none
  attrs : m.attrs.IsSorted
  extra : m.extra.IsSorted
  values : ∀ e ∈ m.extra, e.1 ≠ "attrs" ∧ e.2.IsSorted

/-- A token whose numbers are within bounds and whose extra data are readable. -/
def Token.IsReadable (t : Token) : Prop :=
  (-2147483648 ≤ t.level ∧ t.level ≤ 2147483647) ∧
    (∀ p, t.map = some p → p.1 ≤ 18446744073709551615 ∧ p.2 ≤ 18446744073709551615) ∧
      ∀ m, t.details = some m → m.IsReadable

theorem yields_textCatalog : textCatalog.Yields Catalog.IsSorted := by
  intro levels d c h
  unfold textCatalog at h
  split at h
  · have hinner := enter_eq_ok h
    split at hinner
    · cases hinner
    · split at hinner
      · cases hinner
      · cases hinner
        exact Catalog.isSorted_ofEntries _
  · cases h

theorem isReadable_of_metaFields {levels : Nat} {attrs : Option (Catalog String)} {extra : Fields}
    {fields : List (String × Draft)} {m : TokenMeta} (hattrs : ∀ c, attrs = some c → c.IsSorted)
    (hextra : extra.IsSorted) (hvalues : ∀ e ∈ extra, e.1 ≠ "attrs" ∧ e.2.IsSorted)
    (h : metaFields levels attrs extra fields = .ok m) : m.IsReadable := by
  induction fields generalizing attrs extra with
  | nil =>
      cases h
      refine ⟨rfl, ?_, hextra, hvalues⟩
      cases attrs with
      | none => exact Catalog.isSorted_nil
      | some c => exact hattrs c rfl
  | cons e rest ih =>
      rcases e with ⟨n, d⟩
      rw [metaFields] at h
      split at h
      · split at h
        · cases h
        · split at h
          · cases h
          · rename_i c hc
            refine ih ?_ hextra hvalues h
            rintro _ ⟨⟩
            exact yields_textCatalog levels d c hc
      · rename_i hname
        split at h
        · cases h
        · rename_i v hv
          refine ih hattrs (hextra.insert n v) ?_ h
          intro e he
          rcases Catalog.mem_insert he with rfl | he
          · exact ⟨by simpa using hname, yields_value levels d v hv⟩
          · exact hvalues e he

theorem TokenMeta.yields_decoder : TokenMeta.decoder.Yields TokenMeta.IsReadable := by
  intro levels d m h
  unfold TokenMeta.decoder at h
  split at h
  · have hinner := enter_eq_ok h
    split at hinner
    · cases hinner
    · rename_i data hdata
      split at hinner
      · cases hinner
      · cases hinner
        refine isReadable_of_metaFields ?_ Catalog.isSorted_nil ?_ hdata
        · intro c hc
          cases hc
        · intro e he
          cases he
  · cases h

namespace Token

/-- All that is read as a token is readable at every depth. -/
theorem yields_decoderWithin (depth : Nat) :
    (decoderWithin depth).Yields fun t => ∀ u ∈ t.deep, u.IsReadable := by
  induction depth with
  | zero =>
      intro levels d t h
      cases h
  | succ depth ih =>
      -- Of the fields only four matter; the others leave these four as they are.
      have hrecord : (record "Token" (Token.fields (decoderWithin depth)) {}).Yields fun t =>
          t.IsReadable ∧ ∀ u ∈ deepInner t.children, u.IsReadable := by
        refine yields_record ?_ ?_
        · refine ⟨⟨by decide, ?_, ?_⟩, ?_⟩
          · intro p hp
            cases hp
          · intro m hm
            cases hm
          · intro u hu
            cases hu
        · simp only [Token.fields, List.forall_mem_cons]
          refine ⟨?type, ?tag, ?attrs, ?map, ?nesting, ?level, ?children, ?content, ?markup, ?info,
            ?details, ?block, ?hidden, fun f hf => absurd hf List.not_mem_nil⟩
          case map =>
            exact keeps_of (yields_natural.pair yields_natural).nullable
              (fun p t hp ht => ⟨⟨ht.1.1, hp, ht.1.2.2⟩, ht.2⟩) _
          case level =>
            exact keeps_of (yields_bounded _ _ _) (fun n t hn ht => ⟨⟨hn, ht.1.2⟩, ht.2⟩) _
          case children =>
            refine keeps_of ih.list.nullable (fun inner t hinner ht => ⟨ht.1, ?_⟩) _
            intro u hu
            cases inner with
            | none => cases hu
            | some ts =>
                rcases mem_deepList.1 hu with ⟨v, hv, hu⟩
                exact hinner ts rfl v hv u hu
          case details =>
            exact keeps_of TokenMeta.yields_decoder.nullable
              (fun m t hm ht => ⟨⟨ht.1.1, ht.1.2.1, hm⟩, ht.2⟩) _
          all_goals
            refine keeps_of (yields_true _) ?_ _
            intro v t _ ht
            exact ht
      intro levels d t h
      have ht := hrecord levels d t h
      rw [deep_eq]
      exact List.forall_mem_cons.2 ht

end Token

/-! ## What is written -/

theorem reads_textCatalog {c : Catalog String} (hc : c.IsSorted) :
    textCatalog.Reads (catalogToJson c) c := by
  intro v levels hv hlevels
  rcases Value.reorders_object.1 hv with ⟨vs, met, rfl, hperm, hmet⟩
  rw [List.forall₂_map_right_iff] at hmet
  -- The entries stand in the order of the fields.
  rcases List.perm_comp_forall₂ hperm hmet with ⟨l, hl, hlc⟩
  have hlt : 1 < levels := by
    rw [catalogToJson, Value.height] at hlevels
    omega
  have hitems : eachItem (fun e : String × Draft =>
      (Decoder.string (levels - 1) e.2).map fun s => (e.1, s)) (Value.draftFields vs) = .ok l := by
    rw [eachItem_eq_ok, Value.draftFields_eq, List.forall₂_map_left_iff]
    refine hl.imp ?_
    rintro ⟨n, w⟩ ⟨m, s⟩ ⟨rfl, hw⟩
    rw [Value.reorders_string.1 hw]
    rfl
  rw [Value.draft, textCatalog, enter_of_lt hlt]
  simp only [hitems, Catalog.ofEntries_of_perm hlc hc]

/-- Fields of other names are stored one after another. -/
theorem metaFields_append {levels : Nat} {vs ws : List (String × Value)}
    (h : List.Forall₂ Value.FieldReorders vs ws)
    (hws : ∀ e ∈ ws, e.1 ≠ "attrs" ∧ e.2.IsSorted ∧ e.2.height < levels)
    (attrs : Option (Catalog String)) (extra : Fields) (rest : List (String × Draft)) :
    metaFields levels attrs extra ((vs.map fun e => (e.1, e.2.draft)) ++ rest) =
      metaFields levels attrs (ws.foldl (fun c (n, v) => Catalog.insert n v c) extra) rest := by
  induction h generalizing extra with
  | nil => rfl
  | @cons e e' _ _ he _ ih =>
      rcases e with ⟨n, v⟩
      rcases e' with ⟨m, w⟩
      rcases he with ⟨rfl, hv⟩
      rcases List.forall_mem_cons.1 hws with ⟨⟨hname, hsorted, hheight⟩, hws⟩
      have hname' : (n == "attrs") = false := beq_eq_false_iff_ne.2 hname
      have hvalue : Decoder.value levels v.draft = .ok w :=
        reads_value hsorted v levels hv hheight
      rw [List.map_cons, List.cons_append, metaFields, hname', if_neg Bool.false_ne_true, hvalue]
      exact ih hws _

/-- The attributes are read wherever they stand among the other fields. -/
theorem metaFields_around {levels : Nat} {vs before behind : List (String × Value)}
    {attrs : Catalog String}
    (h : List.Forall₂ Value.FieldReorders vs (before ++ ("attrs", catalogToJson attrs) :: behind))
    (hplain : ∀ e ∈ before ++ behind, e.1 ≠ "attrs" ∧ e.2.IsSorted ∧ e.2.height < levels)
    (hattrs : attrs.IsSorted) (hheight : (catalogToJson attrs).height < levels) :
    metaFields levels none [] (Value.draftFields vs) =
      .ok { attrs, extra := Catalog.ofEntries (before ++ behind) } := by
  -- The fields are those before the attributes, the attributes, and those behind.
  have hfront := List.forall₂_take_append vs before _ h
  rcases List.forall₂_cons_right_iff.1 (List.forall₂_drop_append vs before _ h) with
    ⟨⟨n, a⟩, back, ⟨hn, ha⟩, hback, hdrop⟩
  have hvs_eq : vs = vs.take before.length ++ (n, a) :: back := by
    rw [← hdrop, List.take_append_drop]
  have hname : (n == "attrs") = true := beq_iff_eq.2 hn
  have hread : textCatalog levels a.draft = .ok attrs :=
    reads_textCatalog hattrs a levels ha hheight
  have hrest := metaFields_append hback (fun e he => hplain e (List.mem_append_right _ he))
    (some attrs) (before.foldl (fun c (n, v) => Catalog.insert n v c) []) []
  rw [List.append_nil] at hrest
  rw [Value.draftFields_eq, hvs_eq, List.map_append, List.map_cons,
    metaFields_append hfront fun e he => hplain e (List.mem_append_left _ he), metaFields, hname,
    if_pos rfl, if_neg (by simp), hread]
  simp only [hrest, metaFields]
  rw [← List.foldl_append, Catalog.ofEntries]
  rfl

theorem TokenMeta.reads_decoder {m : TokenMeta} (hm : m.IsReadable) :
    TokenMeta.decoder.Reads m.toJson m := by
  intro v levels hv hlevels
  rcases Value.reorders_object.1 hv with ⟨vs, met, rfl, hperm, hmet⟩
  rcases List.perm_comp_forall₂ hperm hmet with ⟨ws, hvs, hws⟩
  have hlt : 1 < levels := by
    rw [TokenMeta.toJson, Value.height] at hlevels
    omega
  have hheight : ∀ e ∈ ws, e.2.height < levels - 1 := by
    intro e he
    have := Value.height_lt_object (hws.subset he)
    rw [TokenMeta.toJson] at hlevels
    omega
  rcases List.append_of_mem (hws.symm.subset List.mem_cons_self) with ⟨before, behind, rfl⟩
  have hextra : (before ++ behind).Perm m.extra :=
    (List.perm_middle.symm.trans hws).cons_inv
  have hplain : ∀ e ∈ before ++ behind,
      e.1 ≠ "attrs" ∧ e.2.IsSorted ∧ e.2.height < levels - 1 := by
    intro e he
    have hvalues := hm.values e (hextra.subset he)
    refine ⟨hvalues.1, hvalues.2, hheight e ?_⟩
    exact List.perm_middle.symm.subset (List.mem_cons_of_mem _ he)
  have hfields := metaFields_around hvs hplain hm.attrs
    (hheight ("attrs", catalogToJson m.attrs) (List.mem_append_right _ List.mem_cons_self))
  rw [Catalog.ofEntries_of_perm hextra hm.extra] at hfields
  rw [Value.draft, TokenMeta.decoder, enter_of_lt hlt]
  simp only [hfields]
  -- What was read has no node.
  have hnode := hm.node_eq
  cases m
  cases hnode
  rfl

namespace Token

theorem listToJson_eq (ts : List Token) : listToJson ts = ts.map toJson := by
  induction ts with
  | nil => rfl
  | cons t rest ih => rw [listToJson, ih, List.map_cons]

/-- The fields of a token have names of their own and do not touch each other. -/
theorem areIndependent_fields (inner : Decoder Token) : AreIndependent (Token.fields inner) := by
  simp only [AreIndependent, Token.fields, List.pairwise_cons, List.forall_mem_cons,
    List.not_mem_nil, false_imp_iff, implies_true, and_true, List.Pairwise.nil]
  repeat' apply And.intro
  all_goals exact independent_of (by decide) fun _ _ _ => rfl

theorem reads_pairs (pairs : List (String × String)) :
    (Decoder.list (.pair .string .string)).Reads (pairsToJson pairs) pairs := by
  refine reads_list (List.forall₂_map_left_iff.2 (List.forall₂_same.2 ?_))
  rintro ⟨n, v⟩ _
  exact (reads_string n).pair (reads_string v)

theorem reads_nesting (n : Nesting) : Nesting.decoder.Reads (.number (.int n.toInt)) n := by
  intro v levels hv _
  rw [Value.reorders_number.1 hv]
  cases n <;> rfl

/-- The values that are written for the fields of a token, each with what it does to a token that
it is read into. -/
def parts (t : Token) : List (Value × (Token → Token)) :=
  [ (.string t.kind, fun s => { s with kind := t.kind }),
    (.string t.tag, fun s => { s with tag := t.tag }),
    (pairsToJson t.attrs, fun s => { s with attrs := t.attrs }),
    (match t.map with
      | some (a, b) => .array [.ofNat a, .ofNat b]
      | none => .null, fun s => { s with map := t.map }),
    (.number (.int t.nesting.toInt), fun s => { s with nesting := t.nesting }),
    (.number (.int t.level), fun s => { s with level := t.level }),
    (childrenToJson t.children, fun s => { s with children := t.children }),
    (.string t.content, fun s => { s with content := t.content }),
    (.string t.markup, fun s => { s with markup := t.markup }),
    (.string t.info, fun s => { s with info := t.info }),
    (match t.details with
      | some m => m.toJson
      | none => .null, fun s => { s with details := t.details }),
    (.bool t.block, fun s => { s with block := t.block }),
    (.bool t.hidden, fun s => { s with hidden := t.hidden }) ]

theorem toJson_eq (inner : Decoder Token) (t : Token) :
    t.toJson =
      .object (((Token.fields inner).map Decoder.Field.name).zip (t.parts.map Prod.fst)) := by
  cases t
  rfl

theorem foldl_parts (t : Token) : t.parts.foldl (fun s p => p.2 s) {} = t := by
  cases t
  rfl

/-- Each field takes what is written for it, if the tokens inside are read. -/
theorem takes_parts {inner : Decoder Token} {t : Token} (ht : t.IsReadable)
    (hinner : ∀ ts, t.children = some ts → ∀ u ∈ ts, inner.Reads u.toJson u) :
    List.Forall₂ (fun (f : Decoder.Field Token) p => f.Takes p.1 p.2) (Token.fields inner)
      t.parts := by
  rcases ht with ⟨hlevel, hmap, hdetails⟩
  refine .cons (takes_of (reads_string _) _ _) <| .cons (takes_of (reads_string _) _ _) <|
    .cons (takes_of ((reads_pairs _).orDefault (by simp [pairsToJson])) _ _) <|
    .cons (takes_of ?map _ _) <| .cons (takes_of (reads_nesting _) _ _) <|
    .cons (takes_of (reads_bounded hlevel.1 hlevel.2 _) _ _) <|
    .cons (takes_of ?children _ _) <|
    .cons (takes_of ((reads_string _).orDefault (by simp)) _ _) <|
    .cons (takes_of ((reads_string _).orDefault (by simp)) _ _) <|
    .cons (takes_of ((reads_string _).orDefault (by simp)) _ _) <|
    .cons (takes_of ?details _ _) <| .cons (takes_of (reads_bool _) _ _) <|
    .cons (takes_of (reads_bool _) _ _) .nil
  case map =>
    cases hp : t.map with
    | none => exact reads_nullable_null _
    | some p =>
        have hbounds := hmap p hp
        exact ((reads_natural hbounds.1).pair (reads_natural hbounds.2)).nullable (by simp)
  case children =>
    cases hts : t.children with
    | none => exact reads_nullable_null _
    | some ts =>
        rw [childrenToJson, listToJson_eq]
        refine Reads.nullable (reads_list ?_) (by simp)
        exact List.forall₂_map_left_iff.2 (List.forall₂_same.2 (hinner ts hts))
  case details =>
    cases hm : t.details with
    | none => exact reads_nullable_null _
    | some m =>
        exact (TokenMeta.reads_decoder (hdetails m hm)).nullable (by simp [TokenMeta.toJson])

theorem height_lt_of_child {t u : Token} {ts : List Token} (hts : t.children = some ts)
    (hu : u ∈ ts) : u.toJson.height + 1 < t.toJson.height := by
  -- The list of the tokens inside is one level, and the object around it another.
  have hinside : u.toJson.height < (childrenToJson t.children).height := by
    rw [hts, childrenToJson, listToJson_eq]
    exact Value.height_lt_array (List.mem_map_of_mem hu)
  have hfield : (childrenToJson t.children).height < t.toJson.height := by
    rcases t with ⟨⟩
    exact Value.height_lt_object (e := ("children", _)) (by simp)
  omega

/-- A readable token is read from what is written of it. -/
theorem reads_decoderWithin {depth : Nat} {t : Token} (ht : ∀ u ∈ t.deep, u.IsReadable)
    (hdepth : t.toJson.height < depth) : (decoderWithin depth).Reads t.toJson t := by
  induction depth generalizing t with
  | zero => omega
  | succ depth ih =>
      rw [deep_eq, List.forall_mem_cons] at ht
      have htakes : List.Forall₂ (fun (f : Decoder.Field Token) p => f.Takes p.1 p.2)
          (Token.fields (decoderWithin depth)) t.parts := by
        refine takes_parts ht.1 ?_
        intro ts hts u hu
        have hheight := height_lt_of_child hts hu
        refine ih (fun w hw => ht.2 w ?_) (by omega)
        rw [hts]
        exact mem_deepList.2 ⟨u, hu, hw⟩
      have hreads := reads_record "Token" {} (areIndependent_fields _) htakes
      rw [foldl_parts, ← toJson_eq] at hreads
      exact hreads

theorem isReadable_of_readStream {text : String} {tokens : List Token}
    (h : readStream text = .ok tokens) : ∀ t ∈ tokens, ∀ u ∈ t.deep, u.IsReadable := by
  rcases eq_ok_of_decodeText h with ⟨d, hd⟩
  exact (yields_decoderWithin levelLimit).list levelLimit d tokens hd

/-- The list of the first fields of a token is read as an object that has these fields is. -/
theorem decoderWithin_array {items : List Draft} {fields : List (String × Draft)}
    (hitems : items.length ≤ 13)
    (hfields : fields.Perm (((Token.fields decoder).map Decoder.Field.name).zip items))
    (depth levels : Nat) (t : Token) :
    decoderWithin depth levels (.array items none) = .ok t ↔
      decoderWithin depth levels (.object fields none) = .ok t := by
  cases depth with
  | zero => exact Iff.rfl
  | succ depth =>
      have hknown := areIndependent_fields (decoderWithin depth)
      have harray := record_array "Token" {} hknown hitems levels
      rw [decoderWithin, harray]
      exact ⟨record_perm hknown hfields.symm, record_perm hknown hfields⟩

/-- Rereading: what is written of a stream that was read, or of a token of it, is read as that
stream or token again, in whatever order the fields of its objects stand; and the list of the
first fields of a token is read as an object that has these fields is.  No bound is set on the
nesting but that there be levels enough. -/
theorem reread {text : String} {tokens : List Token} (h : readStream text = .ok tokens) :
    (∀ v : Value, v.Reorders (.array (listToJson tokens)) → ∀ depth levels : Nat,
      (Value.array (listToJson tokens)).height < depth →
        (Value.array (listToJson tokens)).height < levels →
          Decoder.list (decoderWithin depth) levels v.draft = .ok tokens) ∧
    (∀ t ∈ tokens, ∀ v : Value, v.Reorders t.toJson → ∀ depth levels : Nat,
      t.toJson.height < depth → t.toJson.height < levels →
        decoderWithin depth levels v.draft = .ok t) ∧
    ∀ (items : List Draft) (fields : List (String × Draft)), items.length ≤ 13 →
      fields.Perm (((Token.fields decoder).map Decoder.Field.name).zip items) →
        ∀ (depth levels : Nat) (t : Token),
          decoderWithin depth levels (.array items none) = .ok t ↔
            decoderWithin depth levels (.object fields none) = .ok t := by
  have hreads : ∀ t ∈ tokens, ∀ depth, t.toJson.height < depth →
      (decoderWithin depth).Reads t.toJson t :=
    fun t ht depth => reads_decoderWithin (isReadable_of_readStream h t ht)
  refine ⟨?stream, ?token, fun items fields => decoderWithin_array⟩
  case stream =>
    intro v hv depth levels hdepth hlevels
    refine reads_list ?_ v levels hv hlevels
    rw [listToJson_eq] at hdepth ⊢
    refine List.forall₂_map_left_iff.2 (List.forall₂_same.2 ?_)
    intro t ht
    have hin := Value.height_lt_array (List.mem_map_of_mem (f := toJson) ht)
    exact hreads t ht depth (by omega)
  case token =>
    intro t ht v hv depth levels hdepth hlevels
    exact hreads t ht depth hdepth v levels hv hlevels

/-- A stream with tokens inside a token, and extra data around the attributes. -/
def nestedStream : List Token :=
  [ { kind := "inline", map := some (0, 1),
      children := some [{ kind := "text", content := "a" }],
      details := some
        { attrs := [("b", "1"), ("c", "2")],
          extra := [("d", .array [.null]), ("e", .number (.int 3))] } } ]

def nestedText : String :=
  "[\x7b\"children\":[[\"text\",\"\",null,null,0,0,null,\"a\"]],\"map\":[0,1],\"tag\":\"\"," ++
    "\"meta\":\x7b\"e\":3,\"attrs\":\x7b\"c\":\"2\",\"b\":\"1\"\x7d,\"d\":[null]\x7d," ++
      "\"type\":\"inline\"\x7d]"

theorem reread_nestedStream :
    readStream nestedText = .ok nestedStream ∧
      Decoder.list (decoderWithin 128) 128 (Value.array (listToJson nestedStream)).draft =
        .ok nestedStream := by
  have hread : readStream nestedText = .ok nestedStream := by cbv
  refine ⟨hread, (reread hread).1 _ (Value.Reorders.refl _) 128 128 ?_ ?_⟩
  · decide
  · decide

end Token
end RenderForest
