import RenderForest.Proofs.Markdown.KeptFields
/-!
# TaskBoxes — what becomes of the box of a task

The state of a task travels through a document as raw markup, which the parser of markup reads
back.  Behind an attribute without a value that parser drops the blanks and the byte behind them,
so that the box of a task that is done comes back without its mark.  This file defines:

* `Field.inputs`, the inputs that a field comes back as;
* `ShowsTasks`, that a forest shows the state of each task of a document by given names;
* `taskDocument`, a list with a task;

and shows in `showsTasks_compile_assemble` which inputs the forest of a document has, and that
they have the names that they are to have exactly if no task is done.
-/

namespace RenderForest

/-! ## Tokens without inputs -/

namespace Markdown

variable {raw : Bool} {shape : String × String × Nesting}

/-- Tags of headings are neither that of an input nor that of a comment. -/
theorem isTameShape_heading (level : Nat) (kind : String) (nesting : Nesting) :
    Token.isTameShape kind (Assembly.headingTag level) nesting =
      Token.isTameShape kind "h1" nesting := by
  rw [Token.isTameShape, Token.isTameShape,
    Assembly.headingTag_bne level Node.inputTag (by decide),
    Assembly.headingTag_bne level commentTag (by decide)]
  rfl

theorem IsMadeShape.isTameShape (h : IsMadeShape raw shape) :
    Token.isTameShape shape.1 shape.2.1 shape.2.2 = true := by
  have hplain : ∀ s ∈ plainShapes, Token.isTameShape s.1 s.2.1 s.2.2 = true := by decide
  have hmarkup : ∀ s ∈ rawShapes, Token.isTameShape s.1 s.2.1 s.2.2 = true := by decide
  cases h with
  | plain hmem => exact hplain _ (List.contains_iff_mem.1 hmem)
  | headingOpen level => exact (isTameShape_heading level _ _).trans rfl
  | headingClose level => exact (isTameShape_heading level _ _).trans rfl
  | raw _ hmem => exact hmarkup _ (List.contains_iff_mem.1 hmem)

end Markdown

namespace Token

variable {raw : Bool} {t : Token}

theorem AllMade.isTame (h : t.AllMade raw) : t.IsTame := by
  have hown := (allMade_iff.1 h).1
  refine isTame_iff.2 ⟨hown.shape.isTameShape, ?_⟩
  rw [hown.details]
  rfl

theorem IsFinished.allTame (h : t.IsFinished raw) : t.AllTame := by
  rcases h.shape with hshape | hshape
  · refine Or.inl (isTame_iff.2 ⟨hshape.isTameShape, ?_⟩)
    rw [h.details]
    rfl
  · have hkind : t.kind = "inline" := congrArg Prod.fst hshape
    have hnesting : t.nesting = .selfClosing := congrArg (fun s => s.2.2) hshape
    exact Or.inr ⟨beq_iff_eq.2 hkind, hnesting, fun u hu => (h.inner u hu).isTame⟩

end Token

namespace Markdown

/-- Whatever the events are, their tokens name no input. -/
theorem Assembly.allTame_assemble (source : String) (events : List Event) :
    ∀ t ∈ assemble source events, t.AllTame :=
  fun t ht => (isFinished_assemble true source (fun _ _ => Or.inl rfl) t ht).allTame

/-! ## Boxes -/

namespace Field

/-- The attributes of the box of a task as they come back. -/
def boxAttrs (done : Bool) : Attributes :=
  ⟨[("type", "checkbox"), ("disabled", "")] ++ (if done then [("hecked", "")] else []) ++
    [("class", "task-list-item-checkbox")]⟩

/-- The inputs that a field comes back as. -/
def inputs (policy : Markup.Policy) : Field → List Attributes
  | .task done => [boxAttrs done]
  | .raw content => Node.inputsAll (Markup.parse content policy)

/-- The names of the attributes that the box of a task is to have. -/
def boxNames (done : Bool) : List String :=
  ["class", "type", "disabled"] ++ if done then ["checked"] else []

def readNames (done : Bool) : List String :=
  ["class", "type", "disabled"] ++ if done then ["hecked"] else []

/-- Inputs show the state of a task by the names of their attributes, whatever their order, or
they are those of raw markup. -/
def IsShown (policy : Markup.Policy) (names : Bool → List String) :
    Field → List Attributes → Prop
  | .task done, inputs => ∃ attrs, inputs = [attrs] ∧
      (Attributes.names attrs.entries).Perm (names done)
  | .raw content, inputs => inputs = Node.inputsAll (Markup.parse content policy)

variable {policy : Markup.Policy} {names : Bool → List String} {f : Field} {fields : List Field}

theorem inputsAll_parse_markup (env : Env) (f : Field) :
    Node.inputsAll (Markup.parse f.markup env.policy) = f.inputs env.policy := by
  have hbox : ∀ done, Node.inputsAll (Markup.parse (Assembly.checkbox done) .safe) =
        [boxAttrs done] ∧
      Node.inputsAll (Markup.parse (Assembly.checkbox done) .standard) = [boxAttrs done] := by
    decide +kernel
  cases f with
  | raw content => rfl
  | task done =>
      unfold Env.policy
      split
      · exact (hbox done).1
      · exact (hbox done).2

theorem isShown_task {done : Bool} : (Field.task done).IsShown policy names
    ((Field.task done).inputs policy) ↔
      (Attributes.names (boxAttrs done).entries).Perm (names done) := by
  constructor
  · rintro ⟨attrs, hattrs, hperm⟩
    rw [(List.cons.inj hattrs).1]
    exact hperm
  · exact fun hperm => ⟨_, rfl, hperm⟩

theorem isShown_readNames (policy : Markup.Policy) (f : Field) :
    f.IsShown policy readNames (f.inputs policy) := by
  cases f with
  | raw content => rfl
  | task done =>
      refine isShown_task.2 ?_
      cases done <;> decide

/-- A field comes back as it should unless it is the box of a task that is done. -/
theorem isShown_boxNames : f.IsShown policy boxNames (f.inputs policy) ↔ f ≠ .task true := by
  cases f with
  | raw content => exact ⟨fun _ => by simp, fun _ => rfl⟩
  | task done =>
      rw [isShown_task]
      cases done <;> decide

/-- A field shows as many inputs as come back. -/
theorem IsShown.length_eq {inputs : List Attributes} (h : f.IsShown policy names inputs) :
    inputs.length = (f.inputs policy).length := by
  cases f with
  | raw content => exact congrArg List.length h
  | task done =>
      rcases h with ⟨attrs, rfl, -⟩
      rfl

/-- Inputs that stand for fields one after another can be split in one way only. -/
theorem isShown_of_flatten {groups : List (List Attributes)}
    (hinputs : fields.flatMap (inputs policy) = groups.flatten)
    (hgroups : List.Forall₂ (IsShown policy names) fields groups) :
    ∀ f ∈ fields, f.IsShown policy names (f.inputs policy) := by
  induction hgroups with
  | nil =>
      intro f hf
      cases hf
  | cons hshown _ ih =>
      rw [List.flatMap_cons, List.flatten_cons] at hinputs
      rcases List.append_inj hinputs hshown.length_eq.symm with ⟨hfirst, hrest⟩
      exact List.forall_mem_cons.2 ⟨hfirst ▸ hshown, ih hrest⟩

theorem exists_isShown_iff :
    (∃ groups, fields.flatMap (inputs policy) = groups.flatten ∧
      List.Forall₂ (IsShown policy names) fields groups) ↔
        ∀ f ∈ fields, f.IsShown policy names (f.inputs policy) := by
  constructor
  · rintro ⟨groups, hinputs, hgroups⟩
    exact isShown_of_flatten hinputs hgroups
  · intro hfields
    refine ⟨fields.map (inputs policy), List.flatMap_def, ?_⟩
    rw [List.forall₂_map_right_iff, List.forall₂_same]
    exact hfields

end Field

/-! ## Documents -/

/-- The inputs of a forest are those of the tasks and of the raw markup of a document, one after
another, and those of tasks have the names for their states. -/
def ShowsTasks (policy : Markup.Policy) (names : Bool → List String) (events : List Event)
    (forest : List Node) : Prop :=
  ∃ groups, Node.inputsAll forest = groups.flatten ∧
    List.Forall₂ (Field.IsShown policy names) (eventFields 0 events) groups

/-- The inputs of the forest of a document are those of its fields, in the order of the events. -/
theorem inputs_compile_assemble {c : Compiler} (hc : c.IsBuiltIn) (env : Env) (source : String)
    {events : List Event} (hnested : WellNested events) {w : Workspace} (hw : w.cache.IsSound) :
    Node.inputsAll (c.compile env (Assembly.assemble source events) w).1 =
      (eventFields 0 events).flatMap (Field.inputs env.policy) := by
  rw [inputs_compile hc env (Assembly.allTame_assemble source events) hw,
    Assembly.raws_assemble source hnested, Env.inputsOf, eventRaws, List.flatMap_map]
  exact List.flatMap_congr fun f _ => Field.inputsAll_parse_markup env f

theorem showsTasks_iff {c : Compiler} (hc : c.IsBuiltIn) (env : Env) (source : String)
    {events : List Event} (hnested : WellNested events) {w : Workspace} (hw : w.cache.IsSound)
    (names : Bool → List String) :
    ShowsTasks env.policy names events (c.compile env (Assembly.assemble source events) w).1 ↔
      ∀ f ∈ eventFields 0 events, f.IsShown env.policy names (f.inputs env.policy) := by
  rw [ShowsTasks, inputs_compile_assemble hc env source hnested hw]
  exact Field.exists_isShown_iff

/-- The forest of a well-nested document has the inputs of its tasks and of its raw markup in
their order.  The mark of a task that is done comes back without its first letter, so that the
names are as they are to be exactly if no task is done. -/
theorem showsTasks_compile_assemble {c : Compiler} (hc : c.IsBuiltIn) (env : Env)
    (source : String) {events : List Event} (hnested : WellNested events) {w : Workspace}
    (hw : w.cache.IsSound) :
    let forest := (c.compile env (Assembly.assemble source events) w).1
    ShowsTasks env.policy Field.readNames events forest ∧
      (ShowsTasks env.policy Field.boxNames events forest ↔
        Field.task true ∉ eventFields 0 events) := by
  intro forest
  have hiff := showsTasks_iff hc env source hnested hw
  refine ⟨(hiff _).2 fun f _ => Field.isShown_readNames _ f, (hiff _).trans ?_⟩
  simp only [Field.isShown_boxNames]
  exact ⟨fun h hmem => h _ hmem rfl, fun h f hf heq => h (heq ▸ hf)⟩

/-- The events of the text

```
- [x] done
```

or of the same text with the box `[ ]`. -/
def taskDocument (done : Bool) : List Event :=
  [.start (.list none) ⟨0, 11⟩, .start .item ⟨0, 11⟩, .leaf (.task done) ⟨2, 5⟩,
   .leaf (.text "done") ⟨6, 10⟩, .stop .item, .stop (.list none)]

theorem wellNested_taskDocument (done : Bool) : WellNested (taskDocument done) := by
  refine .cons (.container (.list none) rfl) (.cons (.container .item rfl) ?_)
  refine .cons (.inline rfl .first) (.cons (.inline rfl (.more rfl)) ?_)
  exact .cons (.containerEnd .item rfl) (.cons (.containerEnd (.list none) rfl) (.nil _))

example : events {} "- [x] done\n" = taskDocument true := by decide +kernel

/-- A task that is not done keeps its state. -/
theorem showsTasks_compile_assemble_taskDocument :
    ({} : Compiler).IsBuiltIn ∧ WellNested (taskDocument false) ∧
      ({} : Workspace).cache.IsSound ∧
      ShowsTasks ({} : Env).policy Field.boxNames (taskDocument false)
        (({} : Compiler).compile {} (Assembly.assemble "- [ ] done\n" (taskDocument false))
          {}).1 := by
  have hbuiltIn : ({} : Compiler).IsBuiltIn := ⟨rfl, rfl, rfl⟩
  have hsound : ({} : Workspace).cache.IsSound := Workspace.isSound_fresh 1
  have hnested := wellNested_taskDocument false
  rcases showsTasks_compile_assemble hbuiltIn {} "- [ ] done\n" hnested hsound with ⟨-, hnames⟩
  exact ⟨hbuiltIn, hnested, hsound, hnames.2 (by decide)⟩

/-- A task that is done does not keep its state. -/
theorem not_showsTasks_compile_assemble :
    ¬ ∀ (env : Env) (source : String) (events : List Event), WellNested events →
      ShowsTasks env.policy Field.boxNames events
        (({} : Compiler).compile env (Assembly.assemble source events) {}).1 := by
  intro h
  have hnested := wellNested_taskDocument true
  have hsound : ({} : Workspace).cache.IsSound := Workspace.isSound_fresh 1
  have hshown := h {} "- [x] done\n" _ hnested
  rw [showsTasks_iff ⟨rfl, rfl, rfl⟩ {} _ hnested hsound] at hshown
  exact Field.isShown_boxNames.1 (hshown (.task true) (by decide)) rfl

end Markdown
end RenderForest
