import Mathlib.Data.List.Nodup
import RenderForest.Compile.Rule
import RenderForest.Proofs.Tree.ClassLists
/-!
# CodeBlocks — where the attributes of a code block go

An indented code block and a fenced one stand in the same two elements, and each of the two
renders deals the attributes of its token out to them.  This file shows:

* `filterNames_ofListWhere`: taking the entries of some names and setting them one after another
  is the same as setting all and dropping the other names;
* `render_eq_codeFrame`: the default render of a fence;
* `innerAttrs_innerAttrs_iff`: when a fence that is rendered again has its class once;

and in `codeBlock_and_render_deal_alike` that both renders give the outer element the bookkeeping
attributes that are valid, and the inner one all other valid ones.
-/

namespace RenderForest

namespace Attributes

/-! ## Choosing entries by their names -/

theorem filterNames_ofListWhere (valid keep : String → Bool) (l : List (String × String)) :
    (ofListWhere (fun a => valid a.1) l).filterNames keep =
      ofListWhere (fun a => valid a.1 && keep a.1) l := by
  have hfold := filterNames_foldl_set keep (l.filter fun a => valid a.1) empty
  rw [List.filter_filter] at hfold
  rw [ofListWhere, ofList, hfold, ofListWhere, ofList]
  refine congrArg (fun kept => List.foldl _ empty kept) (List.filter_congr fun a _ => ?_)
  exact Bool.and_comm ..

theorem nodup_names_filterNames {keep : String → Bool} {attrs : Attributes}
    (h : (names attrs.entries).Nodup) : (names (attrs.filterNames keep).entries).Nodup :=
  h.sublist (List.filter_sublist.map Prod.fst)

theorem name_of_mem_filterNames {keep : String → Bool} {attrs : Attributes} {n : String}
    (h : n ∈ names (attrs.filterNames keep).entries) : keep n = true := by
  rcases List.mem_map.1 h with ⟨a, ha, rfl⟩
  exact (List.mem_filter.1 ha).2

/-- Entries that are in front, and whose names are not set, stay in front. -/
theorem foldl_set_append (front : List (String × String)) {l : List (String × String)}
    (h : ∀ n ∈ names l, n ∉ names front) (attrs : Attributes) :
    l.foldl (fun (a : Attributes) (n, v) => a.set n v) ⟨front ++ attrs.entries⟩ =
      ⟨front ++ (l.foldl (fun a (n, v) => a.set n v) attrs).entries⟩ := by
  induction l generalizing attrs with
  | nil => rfl
  | cons e rest ih =>
      have hset : (⟨front ++ attrs.entries⟩ : Attributes).set e.1 e.2 =
          ⟨front ++ (attrs.set e.1 e.2).entries⟩ :=
        congrArg Attributes.mk (setEntries_append (h e.1 List.mem_cons_self) attrs.entries)
      show rest.foldl _ ((⟨front ++ attrs.entries⟩ : Attributes).set e.1 e.2) = _
      rw [hset]
      exact ih (fun n hn => h n (List.mem_cons_of_mem _ hn)) (attrs.set e.1 e.2)

end Attributes

/-! ## The two elements -/

namespace Token

/-- The valid attributes that keep account of where a token stands. -/
def sourceAttrs (t : Token) : Attributes :=
  t.validAttrs.filterNames isSourceAttr

/-- All other valid attributes of a token. -/
def ownAttrs (t : Token) : Attributes :=
  t.validAttrs.filterNames fun n => !isSourceAttr n

theorem sourceAttrs_eq (t : Token) :
    t.sourceAttrs = Attributes.ofListWhere
      (fun a => Safety.isValidAttributeName a.1 && isSourceAttr a.1) t.attrs :=
  Attributes.filterNames_ofListWhere Safety.isValidAttributeName isSourceAttr t.attrs

theorem ownAttrs_eq (t : Token) :
    t.ownAttrs = Attributes.ofListWhere
      (fun a => Safety.isValidAttributeName a.1 && !isSourceAttr a.1) t.attrs :=
  Attributes.filterNames_ofListWhere Safety.isValidAttributeName (fun n => !isSourceAttr n) t.attrs

theorem nodup_names_validAttrs (t : Token) : (Attributes.names t.validAttrs.entries).Nodup :=
  Attributes.nodup_names_ofList _

theorem nodup_names_sourceAttrs (t : Token) : (Attributes.names t.sourceAttrs.entries).Nodup :=
  Attributes.nodup_names_filterNames t.nodup_names_validAttrs

theorem nodup_names_ownAttrs (t : Token) : (Attributes.names t.ownAttrs.entries).Nodup :=
  Attributes.nodup_names_filterNames t.nodup_names_validAttrs

end Token

/-- The two elements that show a text as code. -/
def codeFrame (outer inner : Attributes) (text : String) : Node :=
  .plain "pre" outer [.plain "code" inner [.text text]]

/-- The attributes that a fence sets before all others. -/
def fenceAttrs (info : String) : List (String × String) :=
  [("data-info", info), ("data-lang", (splitInfo info).1)]

theorem name_of_mem_fenceAttrs {info n : String} (h : n ∈ Attributes.names (fenceAttrs info)) :
    isSourceAttr n = false := by
  have hn : n ∈ ["data-info", "data-lang"] := h
  clear h
  revert n
  decide

/-- The attributes of the info string are no bookkeeping attributes. -/
theorem nodup_names_fenceAttrs_append (t : Token) :
    (Attributes.names (fenceAttrs t.info ++ t.sourceAttrs.entries)).Nodup := by
  rw [Attributes.names, List.map_append]
  refine List.nodup_append.2 ⟨?_, t.nodup_names_sourceAttrs, ?_⟩
  · exact (by decide : ["data-info", "data-lang"].Nodup)
  · rintro n hn _ hmem rfl
    have hfalse := name_of_mem_fenceAttrs hn
    rw [Attributes.name_of_mem_filterNames hmem] at hfalse
    cases hfalse

/-- The outer element of a fence has the two attributes of its info string first, and then the
bookkeeping attributes. -/
theorem outerAttrs_eq (t : Token) :
    DefaultFence.outerAttrs t.attrs (CodeBlock.ofToken t) =
      ⟨fenceAttrs t.info ++ t.sourceAttrs.entries⟩ := by
  rw [Token.sourceAttrs_eq, DefaultFence.outerAttrs]
  refine Attributes.foldl_set_append (fenceAttrs t.info) ?_ .empty
  intro n hn hfront
  rcases List.mem_map.1 hn with ⟨a, ha, rfl⟩
  have hsource := (Bool.and_eq_true_iff.1 (List.mem_filter.1 ha).2).2
  rw [name_of_mem_fenceAttrs hfront] at hsource
  cases hsource

theorem codeBlock_eq_codeFrame (input : RuleInput) :
    Rule.codeBlock input = pure (.node (codeFrame input.token.sourceAttrs input.token.ownAttrs
      input.token.content)) := by
  rw [Token.sourceAttrs_eq, Token.ownAttrs_eq]
  rfl

theorem render_eq_codeFrame (langClass : String) (t : Token) :
    ({ langClass } : DefaultFence).render t.attrs (CodeBlock.ofToken t) =
      codeFrame ⟨fenceAttrs t.info ++ t.sourceAttrs.entries⟩
        (if (splitInfo t.info).1.isEmpty then t.ownAttrs
          else t.ownAttrs.mergeClass (langClass ++ (splitInfo t.info).1)) t.content := by
  rw [← outerAttrs_eq, Token.ownAttrs_eq]
  rfl

/-! ## Both renders -/

/-- An indented code block and a fence without a highlighter deal the valid attributes of their
token out alike: the bookkeeping ones go to the outer element and all others to the inner one,
each once and in order.  A fence adds the two attributes of its info string in front, and the
class of its language, which changes no other attribute of the inner element; for an empty info
string there is no such class. -/
theorem codeBlock_and_render_deal_alike (langClass : String) (input : RuleInput) :
    let t := input.token
    let language := (splitInfo t.info).1
    let render := ({ langClass } : DefaultFence).render t.attrs (CodeBlock.ofToken t)
    let inner := if language.isEmpty then t.ownAttrs
      else t.ownAttrs.mergeClass (langClass ++ language)
    (Attributes.names t.validAttrs.entries).Nodup ∧
    Rule.codeBlock input = pure (.node (codeFrame t.sourceAttrs t.ownAttrs t.content)) ∧
    render = codeFrame ⟨fenceAttrs t.info ++ t.sourceAttrs.entries⟩ inner t.content ∧
    (Attributes.names (fenceAttrs t.info ++ t.sourceAttrs.entries)).Nodup ∧
    (Attributes.names inner.entries).Nodup ∧
    (language.isEmpty = false →
      inner = t.ownAttrs.set "class"
        (Attributes.addWord ((t.ownAttrs.get? "class").getD "") (langClass ++ language)) ∧
      inner.filterNames (· != "class") = t.ownAttrs.filterNames (· != "class")) ∧
    (t.info = "" → render = codeFrame
      ⟨("data-info", "") :: ("data-lang", "") :: t.sourceAttrs.entries⟩ t.ownAttrs t.content) := by
  intro t language render inner
  have hrender : render =
      codeFrame ⟨fenceAttrs t.info ++ t.sourceAttrs.entries⟩ inner t.content :=
    render_eq_codeFrame langClass t
  refine ⟨t.nodup_names_validAttrs, codeBlock_eq_codeFrame input, hrender,
    nodup_names_fenceAttrs_append t, ?_, ?_, ?_⟩
  · show (Attributes.names (if language.isEmpty then t.ownAttrs
      else t.ownAttrs.mergeClass (langClass ++ language)).entries).Nodup
    split
    · exact t.nodup_names_ownAttrs
    · exact Attributes.nodup_names_mergeClass t.nodup_names_ownAttrs _
  · intro hlanguage
    have hinner : inner = t.ownAttrs.mergeClass (langClass ++ language) :=
      if_neg (by rw [hlanguage]; exact Bool.false_ne_true)
    rw [hinner]
    exact ⟨Attributes.mergeClass_eq_set _ _, Attributes.filterNames_mergeClass _ _⟩
  · intro hinfo
    have hlanguage : language = "" := by
      show (splitInfo t.info).1 = ""
      rw [hinfo]
      rfl
    have hinner : inner = t.ownAttrs := if_pos (by rw [hlanguage]; rfl)
    rw [hrender, hinner, hinfo]
    rfl

/-! ## Rendering the attributes again -/

/-- The language is the first word of an info string. -/
theorem isWord_language {info : String} (h : (splitInfo info).1 ≠ "") :
    Text.IsWord (splitInfo info).1.toList := by
  have hlist : (splitInfo info).1.toList =
      (Text.trim info.toList).takeWhile fun c => !Text.isBlank c :=
    String.toList_ofList
  constructor
  · exact fun hnil => h (String.toList_inj.1 hnil)
  · intro c hc
    rw [hlist] at hc
    simpa using List.all_eq_true.1 List.all_takeWhile c hc

theorem Attributes.ofListWhere_of_nodup {keep : String × String → Bool} {attrs : Attributes}
    (hnames : (names attrs.entries).Nodup) (hkeep : ∀ a ∈ attrs.entries, keep a = true) :
    ofListWhere keep attrs.entries = attrs := by
  rw [ofListWhere, List.filter_eq_self.2 hkeep]
  exact foldl_set_of_nodup hnames

namespace DefaultFence

variable {f : DefaultFence} {l : List (String × String)} {b : CodeBlock}

/-- The class that is merged is valid and keeps no account, like the attributes before it. -/
theorem keep_of_mem_innerAttrs {a : String × String} (h : a ∈ (f.innerAttrs l b).entries) :
    (Safety.isValidAttributeName a.1 && !isSourceAttr a.1) = true := by
  unfold innerAttrs at h
  split at h
  · exact (Attributes.mem_ofListWhere h).2
  · rw [Attributes.mergeClass_eq_set] at h
    rcases Attributes.mem_set h with rfl | h
    · show (Safety.isValidAttributeName "class" && !isSourceAttr "class") = true
      decide
    · exact (Attributes.mem_ofListWhere h).2

theorem nodup_names_innerAttrs (f : DefaultFence) (l : List (String × String)) (b : CodeBlock) :
    (Attributes.names (f.innerAttrs l b).entries).Nodup := by
  unfold innerAttrs
  split
  · exact Attributes.nodup_names_ofList _
  · exact Attributes.nodup_names_mergeClass (Attributes.nodup_names_ofList _) _

/-- What the inner element has is what it gets again, with the class merged once more. -/
theorem innerAttrs_innerAttrs (f : DefaultFence) (l : List (String × String)) (b : CodeBlock) :
    f.innerAttrs (f.innerAttrs l b).entries b =
      if b.language.isEmpty then f.innerAttrs l b
      else (f.innerAttrs l b).mergeClass (f.langClass ++ b.language) := by
  have hown := Attributes.ofListWhere_of_nodup (nodup_names_innerAttrs f l b)
    fun _ ha => keep_of_mem_innerAttrs ha
  conv_lhs => rw [innerAttrs]
  rw [hown]

/-- The default render changes nothing about attributes that it gave itself exactly if the text
before the language has no blank: with one, the class of the language is appended each time. -/
theorem innerAttrs_innerAttrs_iff (f : DefaultFence) (l : List (String × String)) (t : Token)
    (hlanguage : (CodeBlock.ofToken t).language ≠ "") :
    f.innerAttrs (f.innerAttrs l (CodeBlock.ofToken t)).entries (CodeBlock.ofToken t) =
        f.innerAttrs l (CodeBlock.ofToken t) ↔
      ∀ c ∈ f.langClass.toList, Text.isBlank c = false := by
  have hword : Text.IsWord (CodeBlock.ofToken t).language.toList := isWord_language hlanguage
  have hne : (CodeBlock.ofToken t).language.isEmpty = false := by
    simpa using hlanguage
  have hclass : f.langClass ++ (CodeBlock.ofToken t).language ≠ "" := by
    intro hempty
    exact hlanguage (by simpa using (String.append_eq_empty_iff.1 hempty).2)
  rw [innerAttrs_innerAttrs, hne, if_neg Bool.false_ne_true, innerAttrs, hne,
    if_neg Bool.false_ne_true, Attributes.mergeClass_mergeClass_iff]
  calc
    _ ↔ Text.IsWord (f.langClass ++ (CodeBlock.ofToken t).language).toList :=
      or_iff_left fun h => hclass h.1
    _ ↔ Text.IsWord (f.langClass.toList ++ (CodeBlock.ofToken t).language.toList) := by
      rw [String.toList_append]
    _ ↔ ∀ c ∈ f.langClass.toList, Text.isBlank c = false := Text.isWord_append_iff hword

end DefaultFence

end RenderForest
