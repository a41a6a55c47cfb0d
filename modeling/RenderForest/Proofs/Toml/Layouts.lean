import RenderForest.Proofs.Toml.DistinctNames
/-!
# Layouts — one table written in three ways

A table of truth values can stand below its header, as dotted keys, or in braces.  This file
defines:

* `Toml.IsBare`, a key that needs no quotes;
* `Toml.Layout` and `Toml.Layout.write`, the three ways of writing;

and shows in `read_write` that all of them are read as the same table.
-/

namespace RenderForest
namespace Toml

open Document (isKeyChar)

/-- A key that is written without quotes. -/
structure IsBare (key : String) : Prop where
  nonempty : key.toList ≠ []
  chars : ∀ c ∈ key.toList, isKeyChar c = true

/-- The ways of writing a table. -/
inductive Layout where
  | header
  | dotted
  | braces
  deriving DecidableEq, Repr

def flagChars : Bool → List Char
  | true => ['t', 'r', 'u', 'e']
  | false => ['f', 'a', 'l', 's', 'e']

def pairChars (option : String × Bool) : List Char :=
  option.1.toList ++ ' ' :: '=' :: ' ' :: flagChars option.2

/-- Lines of keys with their values; something stands before each key. -/
def linesChars (start : List Char) (options : List (String × Bool)) : List Char :=
  options.flatMap fun option => start ++ pairChars option ++ ['\n']

/-- Keys with their values in one line, up to the closing brace. -/
def bracesChars : List (String × Bool) → List Char
  | [] => ['\x7d']
  | [option] => pairChars option ++ [' ', '\x7d']
  | option :: options => pairChars option ++ ',' :: ' ' :: bracesChars options

/-- A document with one table of truth values. -/
def Layout.write (name : String) (options : List (String × Bool)) : Layout → String
  | .header => String.ofList ('[' :: (name.toList ++ ']' :: '\n' :: linesChars [] options))
  | .dotted => String.ofList (linesChars (name.toList ++ ['.']) options)
  | .braces =>
    String.ofList
      (name.toList ++ ' ' :: '=' :: ' ' :: '\x7b' :: ' ' :: (bracesChars options ++ ['\n']))

def flagEntries (options : List (String × Bool)) : Entries :=
  options.map fun option => (option.1, .flag option.2)

/-- One table of truth values. -/
def flagTable (name : String) (origin : Origin) (options : List (String × Bool)) : Entries :=
  [(name, .table origin (flagEntries options))]

/-- What a document with one table is read as.  Without any dotted keys there is no table. -/
def Layout.table (name : String) : Layout → List (String × Bool) → Entries
  | .header, options => flagTable name .header options
  | .dotted, [] => []
  | .dotted, option :: options => flagTable name .dotted (option :: options)
  | .braces, options => flagTable name .inline options

/-! ## Tables that grow -/

namespace Entries

/-- An item with a new name is added at the end. -/
theorem put_of_not_mem {entries : Entries} {key : String} (item : Item)
    (h : key ∉ entries.map Prod.fst) : entries.put key item = entries ++ [(key, item)] := by
  induction entries with
  | nil => rfl
  | cons e rest ih =>
      have hne : (e.1 == key) = false := by
        apply beq_false_of_ne
        rintro rfl
        exact h List.mem_cons_self
      have hrest : key ∉ rest.map Prod.fst := fun hmem => h (List.mem_cons_of_mem _ hmem)
      rw [put, hne, ih hrest]
      rfl

theorem get?_of_not_mem {entries : Entries} {key : String} (h : key ∉ entries.map Prod.fst) :
    entries.get? key = none := by
  rw [get?, List.lookup_eq_none_iff]
  intro e he
  apply bne_iff_ne.2
  rintro rfl
  exact h (List.mem_map_of_mem he)

theorem add?_of_not_mem {entries : Entries} {key : String} (item : Item)
    (h : key ∉ entries.map Prod.fst) :
    entries.add? key item = some (entries ++ [(key, item)]) := by
  rw [add?, get?_of_not_mem h, put_of_not_mem item h]

end Entries

/-- An option behind others has a name of its own. -/
theorem not_mem_of_nodup {done options : List (String × Bool)} {option : String × Bool}
    (h : ((done ++ option :: options).map Prod.fst).Nodup) : option.1 ∉ done.map Prod.fst := by
  intro hmem
  rw [List.map_append, List.map_cons] at h
  exact (List.nodup_append.1 h).2.2 _ hmem _ List.mem_cons_self rfl

theorem add?_flagEntries {done : List (String × Bool)} {option : String × Bool}
    (h : option.1 ∉ done.map Prod.fst) :
    (flagEntries done).add? option.1 (.flag option.2) = some (flagEntries (done ++ [option])) := by
  have hnames : (flagEntries done).map Prod.fst = done.map Prod.fst := by simp [flagEntries]
  rw [Entries.add?_of_not_mem (.flag option.2) (by rwa [hnames])]
  simp [flagEntries]

theorem get?_flagTable (name : String) (origin : Origin) (options : List (String × Bool)) :
    (flagTable name origin options).get? name = some (.table origin (flagEntries options)) := by
  simp [flagTable, Entries.get?_cons]

theorem put_flagTable (name : String) (origin : Origin) (options other : List (String × Bool)) :
    (flagTable name origin options).put name (.table origin (flagEntries other)) =
      flagTable name origin other := by
  simp [flagTable, Entries.put]

/-! ## Keys -/

namespace Document

variable {key name : String} {option : String × Bool} {s rest : List Char} {c : Char}

/-- A character that no key has is not one of a key. -/
theorem ne_of_isKeyChar (h : isKeyChar c = true) {d : Char} (hd : isKeyChar d = false) :
    c ≠ d := by
  rintro rfl
  rw [h] at hd
  cases hd

theorem isBlank_of_isKeyChar (h : isKeyChar c = true) : Quoted.isBlank c = false := by
  have hspace : c ≠ ' ' := ne_of_isKeyChar h (by decide)
  have htab : c ≠ '\t' := ne_of_isKeyChar h (by decide)
  simp [Quoted.isBlank, hspace, htab]

theorem exists_cons_of_isBare (h : IsBare key) (rest : List Char) :
    ∃ c tail, key.toList ++ rest = c :: tail ∧ isKeyChar c = true := by
  cases hkey : key.toList with
  | nil => exact absurd hkey h.nonempty
  | cons c tail =>
      refine ⟨c, tail ++ rest, rfl, ?_⟩
      apply h.chars
      rw [hkey]
      exact List.mem_cons_self

theorem skipBlanks_cons (h : Quoted.isBlank c = false) (rest : List Char) :
    skipBlanks (c :: rest) = c :: rest := by
  rw [skipBlanks, List.dropWhile_cons_of_neg (by simp [h])]

theorem skipBlanks_bare (h : IsBare key) (rest : List Char) :
    skipBlanks (key.toList ++ rest) = key.toList ++ rest := by
  rcases exists_cons_of_isBare h rest with ⟨c, tail, heq, hc⟩
  rw [heq, skipBlanks_cons (isBlank_of_isKeyChar hc)]

/-- A key without quotes ends at the first character that no key has. -/
theorem readPart?_bare (h : IsBare key) (hc : isKeyChar c = false)
    (hs : skipBlanks s = key.toList ++ c :: rest) :
    readPart? s = some (key, skipBlanks (c :: rest)) := by
  have hchars : (key.toList ++ c :: rest).takeWhile isKeyChar = key.toList := by
    rw [List.takeWhile_append_of_pos h.chars, List.takeWhile_cons_of_neg (by simp [hc]),
      List.append_nil]
  rw [readPart?, hs, hchars]
  split
  · rename_i hempty
    exact absurd hempty h.nonempty
  · rw [List.drop_left, Option.map_some]
    exact congrArg (fun k => some (k, skipBlanks (c :: rest))) String.ofList_toList

/-- A key ends behind a part that no dot follows. -/
theorem readKey?_single {fuel : Nat} (h : readPart? s = some (key, c :: rest)) (hc : c ≠ '.') :
    readKey? (fuel + 1) s = some ([], key, c :: rest) := by
  rw [readKey?, h, Option.bind_some]
  dsimp only
  split
  · rename_i hdot
    exact absurd (List.cons.inj hdot).1 hc
  · rfl

theorem key?_bare (h : IsBare key) (hs : skipBlanks s = key.toList ++ ']' :: rest) :
    key? s = some ([], key, ']' :: rest) := by
  have hpart := readPart?_bare h (by decide) hs
  exact readKey?_single hpart (by decide)

theorem readKey?_pair {fuel : Nat} (h : IsBare option.1)
    (hs : skipBlanks s = pairChars option ++ rest) :
    readKey? (fuel + 1) s =
      some ([], option.1, '=' :: ' ' :: (flagChars option.2 ++ rest)) := by
  rw [pairChars, List.append_assoc] at hs
  have hpart := readPart?_bare h (by decide) hs
  exact readKey?_single hpart (by decide)

theorem key?_dotted (hname : IsBare name) (h : IsBare option.1) (rest : List Char) :
    key? (name.toList ++ '.' :: (pairChars option ++ rest)) =
      some ([name], option.1, '=' :: ' ' :: (flagChars option.2 ++ rest)) := by
  have hpart : readPart? (name.toList ++ '.' :: (pairChars option ++ rest)) =
      some (name, '.' :: (pairChars option ++ rest)) :=
    readPart?_bare hname (by decide) (skipBlanks_bare hname _)
  have hpair : skipBlanks (pairChars option ++ rest) = pairChars option ++ rest := by
    rw [pairChars, List.append_assoc, skipBlanks_bare h]
  rw [key?, maxDepth, readKey?, hpart]
  exact congrArg (Option.map _) (readKey?_pair h hpair)

/-! ## Values -/

theorem readValue?_flag (fuel depth : Nat) (b : Bool) (rest : List Char) :
    readValue? (fuel + 1) depth (flagChars b ++ rest) = some (.flag b, rest) := by
  cases b with
  | true => simp [flagChars, readValue?]
  | false => simp [flagChars, readValue?]

theorem skipBlanks_flag (b : Bool) (rest : List Char) :
    skipBlanks (' ' :: (flagChars b ++ rest)) = flagChars b ++ rest := by
  cases b with
  | true => rfl
  | false => rfl

theorem endLine?_newline (rest : List Char) : endLine? ('\n' :: rest) = some rest :=
  rfl

/-- A line with a key and its value. -/
theorem readAssignment?_value {state : State} {path : List String} {root : Entries} {item : Item}
    {after : List Char} (hkey : key? s = some (path, key, '=' :: rest))
    (hvalue : readValue? (2 * (skipBlanks rest).length + 1) (maxDepth - 1) (skipBlanks rest) =
      some (item, '\n' :: after))
    (hroot : state.root.within? (Entries.insert? path key item) state.path = some root) :
    readAssignment? state s = some ({ state with root }, after) := by
  have hstrip : Text.stripStart? ['='] ('=' :: rest) = some rest := Text.stripStart?_append ['='] _
  simp only [readAssignment?, hkey, bind, Option.bind_some, hstrip, hvalue, endLine?_newline, hroot]
  rfl

theorem readAssignment?_flag {state : State} {path : List String} {root : Entries} {b : Bool}
    (hkey : key? s = some (path, key, '=' :: ' ' :: (flagChars b ++ '\n' :: rest)))
    (hroot : state.root.within? (Entries.insert? path key (.flag b)) state.path = some root) :
    readAssignment? state s = some ({ state with root }, rest) := by
  apply readAssignment?_value hkey ?_ hroot
  rw [skipBlanks_flag]
  exact readValue?_flag _ _ b _

/-! ## Lines -/

/-- A line that begins with a key is one with a value. -/
theorem readLines?_key {fuel : Nat} {state state' : State} (hc : isKeyChar c = true)
    (h : readAssignment? state (c :: s) = some (state', rest)) :
    readLines? (fuel + 1) state (c :: s) = readLines? fuel state' rest := by
  have hblank := isBlank_of_isKeyChar hc
  have hfeed : c ≠ '\n' := ne_of_isKeyChar hc (by decide)
  have hreturn : c ≠ '\r' := ne_of_isKeyChar hc (by decide)
  have hnewline : Quoted.newline? (c :: s) = none := by
    simp [Quoted.newline?, hfeed, hreturn]
  rw [readLines?, skipBlanks_cons hblank]
  split
  · rename_i heq
    cases heq
  · rename_i heq
    cases heq
    cases hc
  · rename_i heq
    cases heq
    cases hc
  · rw [hnewline, h]
    rfl

/-- Lines of keys with truth values are read one after another, if each of them takes the table that
the options before have made to the next one. -/
theorem readLines?_lines {start : List Char} {header path : List String}
    {root : List (String × Bool) → Entries}
    (hstart : ∀ option : String × Bool, IsBare option.1 → ∀ rest,
      ∃ c tail, start ++ (pairChars option ++ rest) = c :: tail ∧ isKeyChar c = true ∧
        key? (c :: tail) =
          some (path, option.1, '=' :: ' ' :: (flagChars option.2 ++ rest)))
    (hstep : ∀ done option, option.1 ∉ done.map Prod.fst →
      (root done).within? (Entries.insert? path option.1 (.flag option.2)) header =
        some (root (done ++ [option])))
    {options done : List (String × Bool)} {fuel : Nat} (hfuel : options.length < fuel)
    (hbare : ∀ option ∈ options, IsBare option.1)
    (hnames : ((done ++ options).map Prod.fst).Nodup) :
    readLines? fuel { root := root done, path := header } (linesChars start options) =
      some (root (done ++ options)) := by
  induction options generalizing done fuel with
  | nil =>
      cases fuel with
      | zero => cases hfuel
      | succ fuel =>
          rw [List.append_nil]
          rfl
  | cons option options ih =>
      cases fuel with
      | zero => cases hfuel
      | succ fuel =>
          rcases List.forall_mem_cons.1 hbare with ⟨hoption, hbare⟩
          have hnew := not_mem_of_nodup hnames
          have hsplit : done ++ option :: options = (done ++ [option]) ++ options := by simp
          rw [hsplit] at hnames ⊢
          rcases hstart option hoption ('\n' :: linesChars start options) with
            ⟨c, tail, hchars, hc, hkey⟩
          have hline : linesChars start (option :: options) = c :: tail := by
            rw [← hchars]
            simp [linesChars]
          calc readLines? (fuel + 1) { root := root done, path := header }
                (linesChars start (option :: options))
            _ = readLines? fuel { root := root (done ++ [option]), path := header }
                  (linesChars start options) := by
                rw [hline, readLines?_key hc (readAssignment?_flag hkey (hstep done option hnew))]
            _ = some (root ((done ++ [option]) ++ options)) :=
                ih (Nat.lt_of_succ_lt_succ hfuel) hbare hnames

theorem length_le_linesChars (start : List Char) (options : List (String × Bool)) :
    options.length ≤ (linesChars start options).length := by
  induction options with
  | nil => exact Nat.zero_le _
  | cons option options ih =>
      simp only [linesChars, List.flatMap_cons, List.length_append, List.length_cons] at ih ⊢
      omega

theorem read?_ofList (hc : c ≠ '\ufeff') (s : List Char) :
    read? (String.ofList (c :: s)) = readLines? ((c :: s).length + 1) {} (c :: s) := by
  simp only [read?, String.toList_ofList]
  split
  · rename_i heq
    exact absurd (List.cons.inj heq).1 hc
  · rfl

variable {options : List (String × Bool)}

/-! ## Below a header -/

/-- The table that a header opens, with one more option. -/
theorem within?_flagTable {done : List (String × Bool)} (h : option.1 ∉ done.map Prod.fst) :
    (flagTable name .header done).within? (Entries.insert? [] option.1 (.flag option.2)) [name] =
      some (flagTable name .header (done ++ [option])) := by
  rw [Entries.within?, get?_flagTable]
  simp only [Entries.within?, Entries.insert?, add?_flagEntries h, Option.map_some, put_flagTable]

theorem readHeader?_bare (hname : IsBare name) (rest : List Char) :
    readHeader? {} (name.toList ++ ']' :: '\n' :: rest) =
      some ({ root := flagTable name .header [], path := [name] }, rest) := by
  have hkey : key? (name.toList ++ ']' :: '\n' :: rest) = some ([], name, ']' :: '\n' :: rest) :=
    key?_bare hname (skipBlanks_bare hname _)
  have hstrip : Text.stripStart? [']'] (']' :: '\n' :: rest) = some ('\n' :: rest) :=
    Text.stripStart?_append [']'] _
  rcases exists_cons_of_isBare hname (']' :: '\n' :: rest) with ⟨c, tail, hchars, hc⟩
  have hbracket : c ≠ '[' := ne_of_isKeyChar hc (by decide)
  rw [hchars] at hkey ⊢
  unfold readHeader?
  split
  · rename_i heq
    exact absurd (List.cons.inj heq).1 hbracket
  · simp only [hkey, bind, Option.bind_some, hstrip, endLine?_newline]
    rfl

theorem starts_pair (h : IsBare option.1) (rest : List Char) :
    ∃ c tail, [] ++ (pairChars option ++ rest) = c :: tail ∧ isKeyChar c = true ∧
      key? (c :: tail) = some ([], option.1, '=' :: ' ' :: (flagChars option.2 ++ rest)) := by
  have hpair : skipBlanks (pairChars option ++ rest) = pairChars option ++ rest := by
    rw [pairChars, List.append_assoc, skipBlanks_bare h]
  rcases exists_cons_of_isBare h (' ' :: '=' :: ' ' :: flagChars option.2 ++ rest) with
    ⟨c, tail, hchars, hc⟩
  have heq : pairChars option ++ rest = c :: tail := by
    rw [← hchars, pairChars, List.append_assoc]
  refine ⟨c, tail, heq, hc, ?_⟩
  rw [← heq]
  exact readKey?_pair h hpair

theorem read_header (hname : IsBare name) (hbare : ∀ option ∈ options, IsBare option.1)
    (hnames : (options.map Prod.fst).Nodup) :
    read? (Layout.header.write name options) = some (flagTable name .header options) := by
  have hfuel :
      options.length < (name.toList ++ ']' :: '\n' :: linesChars [] options).length + 1 := by
    have hlines := length_le_linesChars [] options
    simp only [List.length_append, List.length_cons]
    omega
  have hhead := readHeader?_bare hname (linesChars [] options)
  have hlines : readLines? _ { root := flagTable name .header [], path := [name] }
      (linesChars [] options) = some (flagTable name .header ([] ++ options)) :=
    readLines?_lines (fun option h rest => starts_pair h rest)
      (fun done option h => within?_flagTable h) hfuel hbare hnames
  rw [Layout.write, read?_ofList (by decide), readLines?, skipBlanks_cons (by decide)]
  exact (congrArg (Option.bind · _) hhead).trans hlines

/-! ## As dotted keys -/

theorem insert?_dotted {done : List (String × Bool)} (h : option.1 ∉ done.map Prod.fst) :
    (Layout.dotted.table name done).insert? [name] option.1 (.flag option.2) =
      some (Layout.dotted.table name (done ++ [option])) := by
  cases done with
  | nil =>
      have hadd : Entries.add? option.1 (.flag option.2) [] = some (flagEntries [option]) :=
        add?_flagEntries h
      simp [Layout.table, Entries.insert?, Entries.insertBelow?, Entries.get?, hadd, Entries.put,
        flagTable]
  | cons first done =>
      simp only [Layout.table, Entries.insert?, Entries.insertBelow?, get?_flagTable,
        beq_self_eq_true, if_true, add?_flagEntries h, Option.map_some, put_flagTable,
        List.cons_append]

theorem starts_dotted (hname : IsBare name) (h : IsBare option.1) (rest : List Char) :
    ∃ c tail, (name.toList ++ ['.']) ++ (pairChars option ++ rest) = c :: tail ∧
      isKeyChar c = true ∧
      key? (c :: tail) = some ([name], option.1, '=' :: ' ' :: (flagChars option.2 ++ rest)) := by
  rcases exists_cons_of_isBare hname ('.' :: (pairChars option ++ rest)) with
    ⟨c, tail, hchars, hc⟩
  refine ⟨c, tail, by simpa using hchars, hc, ?_⟩
  rw [← hchars]
  exact key?_dotted hname h rest

theorem read_dotted (hname : IsBare name) (hbare : ∀ option ∈ options, IsBare option.1)
    (hnames : (options.map Prod.fst).Nodup) :
    read? (Layout.dotted.write name options) = some (Layout.dotted.table name options) := by
  have hstep : ∀ done option, option.1 ∉ done.map Prod.fst →
      (Layout.dotted.table name done).within?
        (Entries.insert? [name] option.1 (.flag option.2)) [] =
          some (Layout.dotted.table name (done ++ [option])) :=
    fun done option h => insert?_dotted h
  have hlines : ∀ fuel, options.length < fuel →
      readLines? fuel { root := Layout.dotted.table name [], path := [] }
        (linesChars (name.toList ++ ['.']) options) =
          some (Layout.dotted.table name ([] ++ options)) := by
    intro fuel hfuel
    exact readLines?_lines (fun option h rest => starts_dotted hname h rest) hstep hfuel hbare
      hnames
  cases options with
  | nil => rfl
  | cons option options =>
      have hlength := length_le_linesChars (name.toList ++ ['.']) (option :: options)
      rcases starts_dotted hname (List.forall_mem_cons.1 hbare).1
        ('\n' :: linesChars (name.toList ++ ['.']) options) with ⟨c, tail, hchars, hc, _⟩
      have hwrite : linesChars (name.toList ++ ['.']) (option :: options) = c :: tail := by
        rw [← hchars]
        simp [linesChars]
      rw [hwrite] at hlines hlength
      rw [Layout.write, hwrite, read?_ofList (ne_of_isKeyChar hc (by decide))]
      exact hlines _ (Nat.lt_succ_of_le hlength)

/-! ## In braces -/

section Braces

variable {fuel : Nat} {done : List (String × Bool)}

/-- A key with a truth value in braces is added, and what stands behind it says how it goes on. -/
theorem readEntries?_pair (depth : Nat) (h : IsBare option.1)
    (hnew : option.1 ∉ done.map Prod.fst) (hs : skipBlanks s = pairChars option ++ rest) :
    readEntries? (fuel + 2) depth (flagEntries done) s =
      match skipBlanks rest with
      | ',' :: rest => readEntries? (fuel + 1) depth (flagEntries (done ++ [option])) rest
      | '\x7d' :: rest => some (flagEntries (done ++ [option]), rest)
      | _ => none := by
  have hkey : key? s = some ([], option.1, '=' :: ' ' :: (flagChars option.2 ++ rest)) :=
    readKey?_pair h hs
  have hinsert : (flagEntries done).insert? [] option.1 (.flag option.2) =
      some (flagEntries (done ++ [option])) := add?_flagEntries hnew
  rw [readEntries?, hkey]
  simp only [Option.bind_some, skipBlanks_flag, readValue?_flag]
  rw [hinsert]
  rfl

theorem exists_cons_braces (h : IsBare option.1) (options : List (String × Bool))
    (rest : List Char) :
    ∃ c tail, bracesChars (option :: options) ++ rest = c :: tail ∧ isKeyChar c = true := by
  have hstarts : ∃ tail, bracesChars (option :: options) ++ rest = option.1.toList ++ tail := by
    cases options with
    | nil =>
        refine ⟨' ' :: '=' :: ' ' :: flagChars option.2 ++ [' ', '\x7d'] ++ rest, ?_⟩
        simp [bracesChars, pairChars]
    | cons next options =>
        refine ⟨' ' :: '=' :: ' ' :: flagChars option.2 ++
          ',' :: ' ' :: bracesChars (next :: options) ++ rest, ?_⟩
        simp [bracesChars, pairChars]
  rcases hstarts with ⟨tail, hstarts⟩
  rw [hstarts]
  exact exists_cons_of_isBare h tail

theorem skipBlanks_key (h : isKeyChar c = true) (s : List Char) :
    skipBlanks (' ' :: c :: s) = c :: s :=
  skipBlanks_cons (isBlank_of_isKeyChar h) s

/-- The entries in braces are read one after another. -/
theorem readEntries?_braces (depth : Nat) {options : List (String × Bool)}
    (hfuel : options.length < fuel) (hbare : ∀ o ∈ option :: options, IsBare o.1)
    (hnames : ((done ++ option :: options).map Prod.fst).Nodup)
    (hs : skipBlanks s = bracesChars (option :: options) ++ rest) :
    readEntries? (fuel + 1) depth (flagEntries done) s =
      some (flagEntries (done ++ option :: options), rest) := by
  induction options generalizing option done fuel s with
  | nil =>
      have hoption := (List.forall_mem_cons.1 hbare).1
      have hlast : skipBlanks s = pairChars option ++ ' ' :: '\x7d' :: rest := by
        rw [hs, bracesChars, List.append_assoc]
        rfl
      cases fuel with
      | zero => cases hfuel
      | succ fuel => exact readEntries?_pair depth hoption (not_mem_of_nodup hnames) hlast
  | cons next options ih =>
      rcases List.forall_mem_cons.1 hbare with ⟨hoption, hbare⟩
      have hsplit : done ++ option :: next :: options = (done ++ [option]) ++ next :: options := by
        simp
      have hnew := not_mem_of_nodup hnames
      have hcomma : skipBlanks s =
          pairChars option ++ ',' :: ' ' :: (bracesChars (next :: options) ++ rest) := by
        rw [hs, bracesChars, List.append_assoc]
        · rfl
        · exact List.cons_ne_nil _ _
      have hblank : skipBlanks (' ' :: (bracesChars (next :: options) ++ rest)) =
          bracesChars (next :: options) ++ rest := by
        rcases exists_cons_braces (List.forall_mem_cons.1 hbare).1 options rest with
          ⟨c, tail, hchars, hc⟩
        rw [hchars, skipBlanks_key hc]
      cases fuel with
      | zero => cases hfuel
      | succ fuel =>
          rw [hsplit] at hnames ⊢
          calc readEntries? (fuel + 2) depth (flagEntries done) s
            _ = readEntries? (fuel + 1) depth (flagEntries (done ++ [option]))
                  (' ' :: (bracesChars (next :: options) ++ rest)) :=
                readEntries?_pair depth hoption hnew hcomma
            _ = some (flagEntries ((done ++ [option]) ++ next :: options), rest) :=
                ih (Nat.lt_of_succ_lt_succ hfuel) hbare hnames hblank

/-- A table in braces. -/
theorem readValue?_braces (depth : Nat) (hfuel : options.length < fuel + 1)
    (hbare : ∀ option ∈ options, IsBare option.1) (hnames : (options.map Prod.fst).Nodup)
    (rest : List Char) :
    readValue? (fuel + 2) (depth + 1) ('\x7b' :: ' ' :: (bracesChars options ++ rest)) =
      some (.table .inline (flagEntries options), rest) := by
  cases options with
  | nil =>
      rw [readValue?]
      rfl
  | cons option options =>
      rcases exists_cons_braces (List.forall_mem_cons.1 hbare).1 options rest with
        ⟨c, tail, hchars, hc⟩
      have hclosing : c ≠ '\x7d' := ne_of_isKeyChar hc (by decide)
      have hentries : readEntries? (fuel + 1) depth [] (c :: tail) =
          some (flagEntries (option :: options), rest) := by
        have hself : skipBlanks (c :: tail) = bracesChars (option :: options) ++ rest := by
          rw [hchars, skipBlanks_cons (isBlank_of_isKeyChar hc)]
        have hnames' : (([] ++ option :: options).map Prod.fst).Nodup := hnames
        exact readEntries?_braces depth (Nat.lt_of_succ_lt_succ hfuel) hbare hnames' hself
      rw [readValue?, hchars]
      dsimp only
      rw [skipBlanks_key hc]
      split
      · rename_i hbrace
        exact absurd (List.cons.inj hbrace).1 hclosing
      · rw [hentries]
        rfl

end Braces

theorem length_le_bracesChars (options : List (String × Bool)) :
    options.length ≤ (bracesChars options).length := by
  induction options with
  | nil => exact Nat.zero_le _
  | cons option options ih =>
      cases options with
      | nil =>
          simp [bracesChars]
      | cons next options =>
          rw [bracesChars]
          · simp only [List.length_append, List.length_cons] at ih ⊢
            omega
          · exact List.cons_ne_nil _ _

theorem read_braces (hname : IsBare name) (hbare : ∀ option ∈ options, IsBare option.1)
    (hnames : (options.map Prod.fst).Nodup) :
    read? (Layout.braces.write name options) = some (Layout.braces.table name options) := by
  rcases exists_cons_of_isBare hname
    (' ' :: '=' :: ' ' :: '\x7b' :: ' ' :: (bracesChars options ++ ['\n'])) with
    ⟨c, tail, hchars, hc⟩
  have hkey : key? (c :: tail) =
      some ([], name, '=' :: ' ' :: '\x7b' :: ' ' :: (bracesChars options ++ ['\n'])) := by
    rw [← hchars]
    exact readKey?_single (readPart?_bare hname (by decide) (skipBlanks_bare hname _)) (by decide)
  have hlength := length_le_bracesChars options
  have hassignment : readAssignment? {} (c :: tail) =
      some ({ root := flagTable name .inline options, path := [] }, []) := by
    apply readAssignment?_value hkey
    · exact readValue?_braces _ (by simp; omega) hbare hnames _
    · simp [Entries.within?, Entries.insert?, Entries.add?, Entries.get?, Entries.put, flagTable]
  rw [Layout.write, hchars, read?_ofList (ne_of_isKeyChar hc (by decide)),
    readLines?_key hc hassignment]
  rfl

end Document

/-- Each way of writing a table is read as that table. -/
theorem read_write (layout : Layout) {name : String} {options : List (String × Bool)}
    (hname : IsBare name) (hbare : ∀ option ∈ options, IsBare option.1)
    (hnames : (options.map Prod.fst).Nodup) :
    read? (layout.write name options) = some (layout.table name options) := by
  cases layout with
  | header => exact Document.read_header hname hbare hnames
  | dotted => exact Document.read_dotted hname hbare hnames
  | braces => exact Document.read_braces hname hbare hnames

end Toml
end RenderForest
