import RenderForest.Proofs.Toml.Layouts
import RenderForest.Proofs.Tree.Sorted
import RenderForest.Settings
/-!
# Declared — which settings files are accepted

The names of the settings are checked at the top of a file and nowhere else.  This file defines:

* `Settings.Gives`, what a table gives for a name: the value of its item, or the default;
* `Settings.IsFlag`, `Settings.NamesTheme` and `Settings.GivesDialect`, what an item stands for;
* `Settings.Holds`, that settings are those of a table;
* `Settings.AllDeclared`, that every key of a file is the name of a setting;

and proves which files are accepted and with which settings.
-/

namespace RenderForest
namespace Settings

open Toml (Item Entries Origin)

/-! ## What a table gives -/

/-- What a table gives for a name: what its item stands for, or the default if the name is not
there. -/
inductive Gives (reads : Item → α → Prop) (entries : Entries) (name : String) (other : α) :
    α → Prop where
  | absent : name ∉ entries.map Prod.fst → Gives reads entries name other other
  | present {item : Item} {v : α} : (name, item) ∈ entries → reads item v →
      Gives reads entries name other v

inductive IsFlag : Item → Bool → Prop where
  | flag (b : Bool) : IsFlag (.flag b) b

inductive IsText : Item → Option String → Prop where
  | text (s : String) : IsText (.text s) (some s)

inductive NamesTheme : Item → Option Theme → Prop where
  | text (t : Theme) : NamesTheme (.text t.name) (some t)
  | table (origin : Origin) (t : Theme) {item : Item} : isHollow item = true →
      NamesTheme (.table origin [(t.name, item)]) (some t)

/-- A dialect is that of a table. -/
structure HoldsDialect (entries : Entries) (d : Markdown.Dialect) : Prop where
  tables : Gives IsFlag entries "tables" true d.tables
  strikethrough : Gives IsFlag entries "strikethrough" true d.strikethrough
  tasks : Gives IsFlag entries "tasklists" true d.tasks

/-- An item that is a dialect: a table, or the values of its settings in their order. -/
inductive GivesDialect : Item → Markdown.Dialect → Prop where
  | table (origin : Origin) {entries : Entries} {d : Markdown.Dialect} :
      HoldsDialect entries d → GivesDialect (.table origin entries) d
  | list {items : List Item} {d : Markdown.Dialect} :
      HoldsDialect (dialectNames.zip items) d → GivesDialect (.list items) d

/-- Settings are those of a table. -/
structure Holds (entries : Entries) (s : Settings) : Prop where
  breaks : Gives IsFlag entries "breaks" false s.breaks
  langClass : Gives IsText entries "lang_prefix" none s.langClass
  safeMode : Gives IsFlag entries "safe_mode" false s.safeMode
  sanitized : Gives IsFlag entries "sanitized" false s.sanitized
  highlight : Gives IsFlag entries "highlight" false s.highlight
  theme : Gives NamesTheme entries "theme" none s.theme
  dialect : Gives GivesDialect entries "tokenize" {} s.dialect

/-! ## What a file may say -/

/-- The settings that are truth values. -/
def flagNames : List String := ["breaks", "safe_mode", "sanitized", "highlight"]

/-- The settings of a dialect are truth values where a table names them. -/
def FlagsDialect (entries : Entries) : Prop :=
  ∀ e ∈ entries, e.1 ∈ dialectNames → ∃ b, IsFlag e.2 b

inductive IsDialect : Item → Prop where
  | table (origin : Origin) {entries : Entries} : FlagsDialect entries →
      IsDialect (.table origin entries)
  | list {items : List Item} : FlagsDialect (dialectNames.zip items) → IsDialect (.list items)

/-- An item has the type that the setting of a name has. -/
structure IsTyped (name : String) (item : Item) : Prop where
  flag : name ∈ flagNames → ∃ b, IsFlag item b
  langClass : name = "lang_prefix" → ∃ s, IsText item s
  theme : name = "theme" → ∃ t, NamesTheme item t
  dialect : name = "tokenize" → IsDialect item

/-- Every key in the table of the dialect is the name of one of its settings. -/
def DialectDeclared (entries : Entries) : Prop :=
  ∀ origin inner, ("tokenize", Item.table origin inner) ∈ entries →
    ∀ e ∈ inner, e.1 ∈ dialectNames

/-- Every key of a file, at the top and in the table of the dialect, is the name of a setting. -/
structure AllDeclared (entries : Entries) : Prop where
  top : ∀ e ∈ entries, e.1 ∈ names
  dialect : DialectDeclared entries

/-- An item without the keys that are no settings of a dialect. -/
def dialectPart : Item → Item
  | .table origin inner => .table origin (inner.filter fun e => dialectNames.contains e.1)
  | item => item

/-- A file without the keys in the table of the dialect that are no settings. -/
def withoutStrays (entries : Entries) : Entries :=
  entries.map fun e => if e.1 = "tokenize" then (e.1, dialectPart e.2) else e

/-- The dialect of the truth values that are given to its settings. -/
def dialectOf (options : List (String × Bool)) : Markdown.Dialect where
  tables := (options.lookup "tables").getD true
  strikethrough := (options.lookup "strikethrough").getD true
  tasks := (options.lookup "tasklists").getD true

/-- How the settings of a file are read. -/
structure ReadsSettings (text : String) : Prop where
  /-- Only a document has settings. -/
  refused : Toml.read? text = none → read? text = none
  /-- A document is accepted exactly if the keys at its top are settings and all its values have
  their types. -/
  accepted : ∀ entries, Toml.read? text = some entries →
    ((∃ s, read? text = some s) ↔
      (∀ e ∈ entries, e.1 ∈ names) ∧ ∀ e ∈ entries, IsTyped e.1 e.2)
  /-- The settings of an accepted document are what it gives, and the defaults of the others. -/
  settings : ∀ entries s, Toml.read? text = some entries → read? text = some s → Holds entries s
  /-- A document all of whose keys are settings is accepted if its values have their types. -/
  complete : ∀ entries, Toml.read? text = some entries → AllDeclared entries →
    (∀ e ∈ entries, IsTyped e.1 e.2) → ∃ s, read? text = some s ∧ Holds entries s
  /-- All keys of an accepted document are settings exactly if those of the dialect are. -/
  declared : ∀ entries s, Toml.read? text = some entries → read? text = some s →
    (AllDeclared entries ↔ DialectDeclared entries)
  /-- Other keys in the table of the dialect are passed over. -/
  strays : ∀ entries, Toml.read? text = some entries →
    read? text = ofEntries? (withoutStrays entries)
  /-- The table of the dialect gives the same settings in each layout, whatever it names. -/
  layouts : ∀ (layout : Toml.Layout) (options : List (String × Bool)),
    (∀ option ∈ options, Toml.IsBare option.1) → (options.map Prod.fst).Nodup →
      text = layout.write "tokenize" options → read? text = some { dialect := dialectOf options }

/-! ## Looking up a name -/

variable {entries : Entries} {name : String} {item : Item}

theorem get?_eq_some_iff (h : entries.IsDistinct) :
    entries.get? name = some item ↔ (name, item) ∈ entries := by
  constructor
  · exact Entries.mem_of_get?
  · intro hmem
    rcases List.append_of_mem hmem with ⟨before, after, rfl⟩
    have hnames := h.names
    rw [List.map_append, List.map_cons] at hnames
    -- No entry before this one has its name.
    have hbefore : ∀ e ∈ before, (name != e.1) = true := by
      intro e he
      have hne := (List.nodup_append.1 hnames).2.2 _ (List.mem_map_of_mem he) name
        List.mem_cons_self
      exact bne_iff_ne.2 hne.symm
    exact List.lookup_eq_some_iff.2 ⟨before, after, rfl, hbefore⟩

theorem get?_eq_none_iff : entries.get? name = none ↔ name ∉ entries.map Prod.fst := by
  rw [Entries.get?, List.lookup_eq_none_iff, List.mem_map]
  constructor
  · rintro hnone ⟨e, he, rfl⟩
    exact bne_iff_ne.1 (hnone e he) rfl
  · intro hname e he
    exact bne_iff_ne.2 fun heq => hname ⟨e, he, heq.symm⟩

section Reading

variable {α : Type} {read? : Item → Option α} {reads : Item → α → Prop} {other v : α}

theorem settingOr_eq_some_iff (h : entries.IsDistinct)
    (hreads : ∀ item : Item, item.IsDistinct → ∀ v, read? item = some v ↔ reads item v) :
    settingOr read? entries name other = some v ↔ Gives reads entries name other v := by
  unfold settingOr
  constructor
  · intro hv
    split at hv
    · rename_i hget
      cases hv
      exact .absent (get?_eq_none_iff.1 hget)
    · rename_i item hget
      exact .present (Entries.mem_of_get? hget) ((hreads item (h.get? hget) v).1 hv)
  · intro hv
    cases hv with
    | absent hname =>
        rw [get?_eq_none_iff.2 hname]
    | present hmem hitem =>
        rw [(get?_eq_some_iff h).2 hmem]
        exact (hreads _ (h.items _ hmem) v).2 hitem

/-- A table gives something for a name if its item stands for something. -/
theorem exists_gives (h : ∀ item, (name, item) ∈ entries → ∃ v, reads item v) :
    ∃ v, Gives reads entries name other v := by
  by_cases hname : name ∈ entries.map Prod.fst
  · rcases List.mem_map.1 hname with ⟨⟨_, item⟩, hmem, rfl⟩
    rcases h item hmem with ⟨v, hv⟩
    exact ⟨v, .present hmem hv⟩
  · exact ⟨other, .absent hname⟩

theorem Gives.reads_of_mem (h : entries.IsDistinct) (hv : Gives reads entries name other v)
    (hmem : (name, item) ∈ entries) : reads item v := by
  cases hv with
  | absent hname =>
      exact absurd (List.mem_map_of_mem hmem) hname
  | present hother hreads =>
      have heq := ((get?_eq_some_iff h).2 hother).symm.trans ((get?_eq_some_iff h).2 hmem)
      cases heq
      exact hreads

end Reading

/-! ## Reading values -/

theorem flag?_eq_some_iff (item : Item) (_ : item.IsDistinct) (b : Bool) :
    flag? item = some b ↔ IsFlag item b := by
  constructor
  · intro h
    cases item with
    | flag b' =>
        cases h
        exact .flag b
    | _ => cases h
  · rintro ⟨⟩
    rfl

theorem text?_eq_some_iff (item : Item) (_ : item.IsDistinct) (s : Option String) :
    (text? item).map some = some s ↔ IsText item s := by
  constructor
  · intro h
    cases item with
    | text t =>
        cases h
        exact .text t
    | _ => cases h
  · rintro ⟨⟩
    rfl

theorem ofName?_eq_some_iff {s : String} {t : Theme} :
    Theme.ofName? s = some t ↔ s = t.name := by
  constructor
  · intro h
    exact (eq_of_beq (List.find?_some h :)).symm
  · rintro rfl
    exact Theme.ofName?_name t

theorem theme?_eq_some_iff (item : Item) (_ : item.IsDistinct) (t : Option Theme) :
    (theme? item).map some = some t ↔ NamesTheme item t := by
  constructor
  · intro h
    rcases Option.map_eq_some_iff.1 h with ⟨t, ht, rfl⟩
    unfold theme? at ht
    -- A name, a table of one entry and anything else.
    split at ht
    · rw [ofName?_eq_some_iff.1 ht]
      exact .text t
    · split at ht
      · rename_i hhollow
        rw [ofName?_eq_some_iff.1 ht]
        exact .table _ t hhollow
      · cases ht
    · cases ht
  · rintro (_ | ⟨origin, t, hhollow⟩)
    · simp [theme?, Theme.ofName?_name]
    · simp [theme?, hhollow, Theme.ofName?_name]

theorem dialectOf?_eq_some_iff (h : entries.IsDistinct) (d : Markdown.Dialect) :
    dialectOf? entries = some d ↔ HoldsDialect entries d := by
  unfold dialectOf?
  constructor
  · intro hd
    rcases Option.bind_eq_some_iff.1 hd with ⟨tables, htables, hd⟩
    rcases Option.bind_eq_some_iff.1 hd with ⟨strikethrough, hstrikethrough, hd⟩
    rcases Option.bind_eq_some_iff.1 hd with ⟨tasks, htasks, hd⟩
    cases hd
    exact {
      tables := (settingOr_eq_some_iff h flag?_eq_some_iff).1 htables
      strikethrough := (settingOr_eq_some_iff h flag?_eq_some_iff).1 hstrikethrough
      tasks := (settingOr_eq_some_iff h flag?_eq_some_iff).1 htasks }
  · intro hd
    simp only [(settingOr_eq_some_iff h flag?_eq_some_iff).2 hd.tables,
      (settingOr_eq_some_iff h flag?_eq_some_iff).2 hd.strikethrough,
      (settingOr_eq_some_iff h flag?_eq_some_iff).2 hd.tasks]
    rfl

/-- The values that a list gives for the settings of a dialect are those of a table. -/
theorem isDistinct_zip {items : List Item} (h : ∀ i ∈ items, i.IsDistinct) :
    Entries.IsDistinct (dialectNames.zip items) where
  names := by
    have hnames : dialectNames.Nodup := by decide
    rw [List.zip_eq_zip_take_min, List.map_fst_zip (by simp)]
    exact hnames.sublist (List.take_sublist _ _)
  items := fun e he => h e.2 (List.of_mem_zip he).2

theorem dialect?_eq_some_iff (item : Item) (h : item.IsDistinct) (d : Markdown.Dialect) :
    dialect? item = some d ↔ GivesDialect item d := by
  constructor
  · intro hd
    unfold dialect? at hd
    split at hd
    · rename_i origin entries
      exact .table origin ((dialectOf?_eq_some_iff (Entries.isDistinct_of_table h) d).1 hd)
    · rename_i items
      cases h with
      | list hitems => exact .list ((dialectOf?_eq_some_iff (isDistinct_zip hitems) d).1 hd)
    · cases hd
  · rintro (⟨origin, hd⟩ | hd)
    · exact (dialectOf?_eq_some_iff (Entries.isDistinct_of_table h) d).2 hd
    · cases h with
      | list hitems => exact (dialectOf?_eq_some_iff (isDistinct_zip hitems) d).2 hd

/-! ## Reading a table -/

/-- A table is accepted exactly if its names are those of settings and all of its items can be
read, and the settings are what they give. -/
theorem ofEntries?_eq_some_iff (h : entries.IsDistinct) (s : Settings) :
    ofEntries? entries = some s ↔ (∀ e ∈ entries, e.1 ∈ names) ∧ Holds entries s := by
  have hcheck : (entries.all fun e => names.contains e.1) = true ↔ ∀ e ∈ entries, e.1 ∈ names := by
    simp only [List.all_eq_true, List.contains_iff_mem]
  unfold ofEntries?
  constructor
  · intro hs
    split at hs
    · rename_i hnames
      rcases Option.bind_eq_some_iff.1 hs with ⟨breaks, hbreaks, hs⟩
      rcases Option.bind_eq_some_iff.1 hs with ⟨langClass, hlangClass, hs⟩
      rcases Option.bind_eq_some_iff.1 hs with ⟨safeMode, hsafeMode, hs⟩
      rcases Option.bind_eq_some_iff.1 hs with ⟨sanitized, hsanitized, hs⟩
      rcases Option.bind_eq_some_iff.1 hs with ⟨highlight, hhighlight, hs⟩
      rcases Option.bind_eq_some_iff.1 hs with ⟨theme, htheme, hs⟩
      rcases Option.bind_eq_some_iff.1 hs with ⟨dialect, hdialect, hs⟩
      cases hs
      refine ⟨hcheck.1 hnames, ?_⟩
      exact {
        breaks := (settingOr_eq_some_iff h flag?_eq_some_iff).1 hbreaks
        langClass := (settingOr_eq_some_iff h text?_eq_some_iff).1 hlangClass
        safeMode := (settingOr_eq_some_iff h flag?_eq_some_iff).1 hsafeMode
        sanitized := (settingOr_eq_some_iff h flag?_eq_some_iff).1 hsanitized
        highlight := (settingOr_eq_some_iff h flag?_eq_some_iff).1 hhighlight
        theme := (settingOr_eq_some_iff h theme?_eq_some_iff).1 htheme
        dialect := (settingOr_eq_some_iff h dialect?_eq_some_iff).1 hdialect }
    · cases hs
  · rintro ⟨hnames, hs⟩
    rw [if_pos (hcheck.2 hnames)]
    simp only [(settingOr_eq_some_iff h flag?_eq_some_iff).2 hs.breaks,
      (settingOr_eq_some_iff h text?_eq_some_iff).2 hs.langClass,
      (settingOr_eq_some_iff h flag?_eq_some_iff).2 hs.safeMode,
      (settingOr_eq_some_iff h flag?_eq_some_iff).2 hs.sanitized,
      (settingOr_eq_some_iff h flag?_eq_some_iff).2 hs.highlight,
      (settingOr_eq_some_iff h theme?_eq_some_iff).2 hs.theme,
      (settingOr_eq_some_iff h dialect?_eq_some_iff).2 hs.dialect]
    rfl

/-! ## Types -/

theorem exists_holdsDialect (h : FlagsDialect entries) : ∃ d, HoldsDialect entries d := by
  have hflag : ∀ name ∈ dialectNames, ∃ b, Gives IsFlag entries name true b := by
    intro name hname
    exact exists_gives fun item hmem => h (name, item) hmem hname
  rcases hflag "tables" (by decide) with ⟨tables, htables⟩
  rcases hflag "strikethrough" (by decide) with ⟨strikethrough, hstrikethrough⟩
  rcases hflag "tasklists" (by decide) with ⟨tasks, htasks⟩
  exact ⟨{ tables, strikethrough, tasks },
    { tables := htables, strikethrough := hstrikethrough, tasks := htasks }⟩

theorem HoldsDialect.flagsDialect {d : Markdown.Dialect} (h : entries.IsDistinct)
    (hd : HoldsDialect entries d) : FlagsDialect entries := by
  rintro ⟨name, item⟩ hmem hname
  simp only [dialectNames, List.mem_cons, List.not_mem_nil, or_false] at hname
  rcases hname with rfl | rfl | rfl
  · exact ⟨_, hd.tables.reads_of_mem h hmem⟩
  · exact ⟨_, hd.strikethrough.reads_of_mem h hmem⟩
  · exact ⟨_, hd.tasks.reads_of_mem h hmem⟩

theorem IsDialect.exists_gives (h : IsDialect item) : ∃ d, GivesDialect item d := by
  cases h with
  | table origin hflags =>
      rcases exists_holdsDialect hflags with ⟨d, hd⟩
      exact ⟨d, .table origin hd⟩
  | list hflags =>
      rcases exists_holdsDialect hflags with ⟨d, hd⟩
      exact ⟨d, .list hd⟩

theorem GivesDialect.isDialect {d : Markdown.Dialect} (h : item.IsDistinct)
    (hd : GivesDialect item d) : IsDialect item := by
  cases hd with
  | table origin hd =>
      exact .table origin (hd.flagsDialect (Entries.isDistinct_of_table h))
  | list hd =>
      cases h with
      | list hitems => exact .list (hd.flagsDialect (isDistinct_zip hitems))

/-- A table has settings if its items have the types of the settings that they name. -/
theorem exists_holds (h : ∀ e ∈ entries, IsTyped e.1 e.2) : ∃ s, Holds entries s := by
  have hflag : ∀ name ∈ flagNames, ∃ b, Gives IsFlag entries name false b := by
    intro name hname
    exact exists_gives fun item hmem => (h _ hmem).flag hname
  rcases hflag "breaks" (by decide) with ⟨breaks, hbreaks⟩
  rcases hflag "safe_mode" (by decide) with ⟨safeMode, hsafeMode⟩
  rcases hflag "sanitized" (by decide) with ⟨sanitized, hsanitized⟩
  rcases hflag "highlight" (by decide) with ⟨highlight, hhighlight⟩
  have hlangClass : ∃ v, Gives IsText entries "lang_prefix" none v :=
    exists_gives fun item hmem => (h _ hmem).langClass rfl
  have htheme : ∃ v, Gives NamesTheme entries "theme" none v :=
    exists_gives fun item hmem => (h _ hmem).theme rfl
  have hdialect : ∃ v, Gives GivesDialect entries "tokenize" {} v :=
    exists_gives fun item hmem => ((h _ hmem).dialect rfl).exists_gives
  rcases hlangClass with ⟨langClass, hlangClass⟩
  rcases htheme with ⟨theme, htheme⟩
  rcases hdialect with ⟨dialect, hdialect⟩
  exact ⟨{ breaks, langClass, safeMode, sanitized, highlight, theme, dialect },
    { breaks := hbreaks, langClass := hlangClass, safeMode := hsafeMode,
      sanitized := hsanitized, highlight := hhighlight, theme := htheme, dialect := hdialect }⟩

/-- The items of a table that has settings have the types of the settings that they name. -/
theorem Holds.isTyped {s : Settings} (h : entries.IsDistinct) (hs : Holds entries s)
    (hmem : (name, item) ∈ entries) : IsTyped name item where
  flag := by
    intro hname
    simp only [flagNames, List.mem_cons, List.not_mem_nil, or_false] at hname
    rcases hname with rfl | rfl | rfl | rfl
    · exact ⟨_, hs.breaks.reads_of_mem h hmem⟩
    · exact ⟨_, hs.safeMode.reads_of_mem h hmem⟩
    · exact ⟨_, hs.sanitized.reads_of_mem h hmem⟩
    · exact ⟨_, hs.highlight.reads_of_mem h hmem⟩
  langClass := by
    rintro rfl
    exact ⟨_, hs.langClass.reads_of_mem h hmem⟩
  theme := by
    rintro rfl
    exact ⟨_, hs.theme.reads_of_mem h hmem⟩
  dialect := by
    rintro rfl
    exact (hs.dialect.reads_of_mem h hmem).isDialect (h.items _ hmem)

/-! ## Keys that are no settings -/

/-- What is read of a name depends on its item only. -/
theorem settingOr_congr {α : Type} {other : α} {read? : Item → Option α} {entries' : Entries}
    (h : (entries'.get? name).map read? = (entries.get? name).map read?) :
    settingOr read? entries' name other = settingOr read? entries name other := by
  unfold settingOr
  cases hget : entries.get? name with
  | none =>
      rw [hget] at h
      rw [Option.map_eq_none_iff.1 h]
  | some item =>
      rw [hget] at h
      rcases Option.map_eq_some_iff.1 h with ⟨item', hget', heq⟩
      rw [hget']
      exact heq

/-- Keys that are no settings of a dialect make no difference to it. -/
theorem dialectOf?_filter (entries : Entries) :
    dialectOf? (entries.filter fun e => dialectNames.contains e.1) = dialectOf? entries := by
  have hread : ∀ name ∈ dialectNames, ∀ other,
      settingOr flag? (entries.filter fun e => dialectNames.contains e.1) name other =
        settingOr flag? entries name other := by
    intro name hname other
    apply settingOr_congr
    exact congrArg (Option.map flag?)
      (Catalog.lookup_filter_name dialectNames.contains (List.contains_iff_mem.2 hname) entries)
  simp only [dialectOf?, hread "tables" (by decide), hread "strikethrough" (by decide),
    hread "tasklists" (by decide)]

theorem dialect?_dialectPart (item : Item) : dialect? (dialectPart item) = dialect? item := by
  cases item with
  | table origin inner => exact dialectOf?_filter inner
  | _ => rfl

theorem get?_withoutStrays (entries : Entries) (name : String) :
    (withoutStrays entries).get? name =
      (entries.get? name).map fun item => if name = "tokenize" then dialectPart item else item := by
  induction entries with
  | nil => rfl
  | cons e entries ih =>
      rcases e with ⟨other, item⟩
      have hfirst : withoutStrays ((other, item) :: entries) =
          (other, if other = "tokenize" then dialectPart item else item) ::
            withoutStrays entries := by
        rw [withoutStrays, List.map_cons]
        split
        · rfl
        · rfl
      rw [hfirst, Entries.get?_cons, Entries.get?_cons, ih]
      split
      · rename_i hname
        rw [hname]
        rfl
      · rfl

theorem ofEntries?_withoutStrays (entries : Entries) :
    ofEntries? (withoutStrays entries) = ofEntries? entries := by
  have hnames : (withoutStrays entries).all (fun e => names.contains e.1) =
      entries.all fun e => names.contains e.1 := by
    rw [withoutStrays, List.all_map]
    apply congrArg (entries.all ·)
    funext e
    dsimp only [Function.comp]
    split
    · rfl
    · rfl
  have hother : ∀ {α : Type} (read? : Item → Option α) (name : String) (other : α),
      name ≠ "tokenize" → settingOr read? (withoutStrays entries) name other =
        settingOr read? entries name other := by
    intro α read? name other hname
    apply settingOr_congr
    simp [get?_withoutStrays, hname]
  have hdialect : settingOr dialect? (withoutStrays entries) "tokenize" {} =
      settingOr dialect? entries "tokenize" {} := by
    apply settingOr_congr
    rw [get?_withoutStrays, Option.map_map]
    exact congrArg (Option.map · _) (funext dialect?_dialectPart)
  unfold ofEntries?
  simp only [hnames, hother _ "breaks" _ (by decide), hother _ "lang_prefix" _ (by decide),
    hother _ "safe_mode" _ (by decide), hother _ "sanitized" _ (by decide),
    hother _ "highlight" _ (by decide), hother _ "theme" _ (by decide), hdialect]

/-! ## Layouts -/

open Toml (Layout IsBare flagEntries flagTable)

theorem get?_flagEntries (options : List (String × Bool)) (name : String) :
    (flagEntries options).get? name = (options.lookup name).map .flag := by
  induction options with
  | nil => rfl
  | cons option options ih =>
      have hfirst : flagEntries (option :: options) =
          (option.1, .flag option.2) :: flagEntries options := rfl
      rw [hfirst, Entries.get?_cons, ih, Catalog.lookup_cons]
      split
      · rfl
      · rfl

theorem dialectOf?_flagEntries (options : List (String × Bool)) :
    dialectOf? (flagEntries options) = some (dialectOf options) := by
  have hread : ∀ name other, settingOr flag? (flagEntries options) name other =
      some ((options.lookup name).getD other) := by
    intro name other
    rw [settingOr, get?_flagEntries]
    cases options.lookup name with
    | none => rfl
    | some b => rfl
  simp only [dialectOf?, hread]
  rfl

/-- A document with nothing but the table of the dialect. -/
theorem ofEntries?_flagTable (origin : Origin) (options : List (String × Bool)) :
    ofEntries? (flagTable "tokenize" origin options) = some { dialect := dialectOf options } := by
  have hother : ∀ {α : Type} (read? : Item → Option α) (name : String) (other : α),
      name ≠ "tokenize" → settingOr read? (flagTable "tokenize" origin options) name other =
        some other := by
    intro α read? name other hname
    rw [settingOr, flagTable, Entries.get?_cons, if_neg hname]
    rfl
  have hdialect : settingOr dialect? (flagTable "tokenize" origin options) "tokenize" {} =
      some (dialectOf options) := by
    rw [settingOr, Toml.get?_flagTable]
    exact dialectOf?_flagEntries options
  unfold ofEntries?
  simp only [hother _ "breaks" _ (by decide), hother _ "lang_prefix" _ (by decide),
    hother _ "safe_mode" _ (by decide), hother _ "sanitized" _ (by decide),
    hother _ "highlight" _ (by decide), hother _ "theme" _ (by decide), hdialect]
  rfl

theorem isBare_tokenize : IsBare "tokenize" where
  nonempty := by decide
  chars := List.all_eq_true.1 (by decide)

/-- The table of the dialect gives the same settings in each layout, whatever it names. -/
theorem read?_write (layout : Layout) {options : List (String × Bool)}
    (hbare : ∀ option ∈ options, IsBare option.1) (hnames : (options.map Prod.fst).Nodup) :
    read? (layout.write "tokenize" options) = some { dialect := dialectOf options } := by
  rw [read?, Toml.read_write layout isBare_tokenize hbare hnames, Option.bind_some]
  cases layout with
  | header => exact ofEntries?_flagTable .header options
  | braces => exact ofEntries?_flagTable .inline options
  | dotted =>
      cases options with
      | nil => rfl
      | cons option options => exact ofEntries?_flagTable .dotted (option :: options)

/-! ## Files -/

/-- A file is accepted exactly if the keys at its top are settings and its values have their types,
and every setting it leaves out takes its default.  Keys in the table of the dialect are not
checked: those that are no settings are passed over. -/
theorem readsSettings (text : String) : ReadsSettings text := by
  have hread : ∀ entries, Toml.read? text = some entries → read? text = ofEntries? entries := by
    intro entries hentries
    rw [read?, hentries, Option.bind_some]
  have hiff : ∀ entries s, Toml.read? text = some entries →
      (read? text = some s ↔ (∀ e ∈ entries, e.1 ∈ names) ∧ Holds entries s) := by
    intro entries s hentries
    rw [hread entries hentries]
    exact ofEntries?_eq_some_iff (Toml.isDistinct_read hentries) s
  constructor
  · intro hnone
    rw [read?, hnone, Option.bind_none]
  · intro entries hentries
    constructor
    · rintro ⟨s, hs⟩
      rcases (hiff entries s hentries).1 hs with ⟨hnames, hholds⟩
      exact ⟨hnames, fun e he => hholds.isTyped (Toml.isDistinct_read hentries) he⟩
    · rintro ⟨hnames, htyped⟩
      rcases exists_holds htyped with ⟨s, hholds⟩
      exact ⟨s, (hiff entries s hentries).2 ⟨hnames, hholds⟩⟩
  · intro entries s hentries hs
    exact ((hiff entries s hentries).1 hs).2
  · intro entries hentries hdeclared htyped
    rcases exists_holds htyped with ⟨s, hholds⟩
    exact ⟨s, (hiff entries s hentries).2 ⟨hdeclared.top, hholds⟩, hholds⟩
  · intro entries s hentries hs
    have hnames := ((hiff entries s hentries).1 hs).1
    exact ⟨fun h => h.dialect, fun h => ⟨hnames, h⟩⟩
  · intro entries hentries
    rw [hread entries hentries, ofEntries?_withoutStrays]
  · rintro layout options hbare hnames rfl
    exact read?_write layout hbare hnames

/-- A misspelt setting of the dialect is accepted and does nothing. -/
theorem not_allDeclared_of_read : ¬∀ text entries s, Toml.read? text = some entries →
    read? text = some s → AllDeclared entries := by
  intro h
  have hbare : ∀ option ∈ [("tabels", false)], IsBare option.1 := by
    intro option hoption
    rw [List.mem_singleton.1 hoption]
    exact ⟨by decide, List.all_eq_true.1 (by decide)⟩
  have hentries := Toml.read_write .header isBare_tokenize hbare (List.nodup_singleton _)
  have hsettings := read?_write .header hbare (List.nodup_singleton _)
  have hdeclared := (h _ _ _ hentries hsettings).dialect .header [("tabels", .flag false)]
    List.mem_cons_self _ List.mem_cons_self
  revert hdeclared
  decide

end Settings
end RenderForest
