import Pipework.Cookbook.Apply
import Pipework.Proofs.Data.Dict
import Pipework.Proofs.Registry

set_option autoImplicit false

/-! # What definitions need

A definition of a step needs a base that is registered and arguments that are values; one of a
pipeline needs specifiers that name what is registered (`Definition.Usable`), and the pipeline is
made of the stages that they denote (`Cookbook.pipelineOf_eq_ok_iff`). Nothing else can be wrong
with a definition (`Cookbook.exists_define_iff`), and a refusal names it (`Definition.Blames`). -/

namespace Pipework

/-! ## Usable definitions -/

/-- The names that a specifier may use: those of steps and, if it is nothing but a name, those of
    pipelines. -/
def Cookbook.Knows (cookbook : Cookbook) : Specifier → Prop
  | .named name => name ∈ cookbook.steps.names ∨ name ∈ cookbook.pipelines.names
  | .overridden name _ _ => name ∈ cookbook.steps.names
  | .bare _ => True
  | .prebuilt _ => True

/-- The document is a value that specifies a stage. -/
def Cookbook.Specifies (cookbook : Cookbook) (document : Document) : Prop :=
  ∃ value specifier, document.toValue = .ok value ∧ Specifier.ofValue value = .ok specifier ∧
    cookbook.Knows specifier

/-- The document specifies this stage. -/
def Cookbook.Denotes (cookbook : Cookbook) (document : Document) (stage : Stage Transform) : Prop :=
  ∃ value specifier, document.toValue = .ok value ∧ Specifier.ofValue value = .ok specifier ∧
    (cookbook.nested specifier).stage cookbook.steps = .ok stage

/-- A definition that can be registered. -/
inductive Definition.Usable (cookbook : Cookbook) : Definition → Prop
  | step {definition : StepDefinition} (hbase : definition.base ∈ cookbook.steps.names)
      (hargs : ∀ document ∈ definition.args, ∃ value, document.toValue = .ok value)
      (hkwargs : ∀ kwargs ∈ definition.kwargs, ∀ entry ∈ kwargs.toList,
        ∃ value, entry.2.toValue = .ok value) : Usable cookbook (.step definition)
  | pipeline {definition : PipelineDefinition}
      (hsteps : ∀ document ∈ definition.steps, cookbook.Specifies document) :
      Usable cookbook (.pipeline definition)

/-! ## What can be registered -/

namespace Cookbook

variable {cookbook : Cookbook}

theorem exists_stepOf_iff {definition : StepDefinition} :
    (∃ step, cookbook.stepOf definition = .ok step) ↔
      definition.base ∈ cookbook.steps.names ∧
        (∀ document ∈ definition.args, ∃ value, document.toValue = .ok value) ∧
        ∀ kwargs ∈ definition.kwargs, ∀ entry ∈ kwargs.toList,
          ∃ value, entry.2.toValue = .ok value := by
  simp only [← Registry.exists_get_iff, ← exists_mapM_option_eq_ok_iff,
    ← Entries.exists_mapExcept_eq_ok_iff]
  simp only [stepOf, exists_bind_eq_ok_iff, mapError_eq_ok_iff]
  constructor
  · rintro ⟨base, hbase, positional, hpositional, named, hnamed, -⟩
    exact ⟨⟨base, hbase⟩, ⟨positional, hpositional⟩, named, hnamed⟩
  · rintro ⟨⟨base, hbase⟩, ⟨positional, hpositional⟩, named, hnamed⟩
    exact ⟨base, hbase, positional, hpositional, named, hnamed, _, rfl⟩

/-- A name that no step has but a pipeline finds its stage, too. -/
theorem exists_stage_nested_iff {specifier : Specifier} :
    (∃ stage, (cookbook.nested specifier).stage cookbook.steps = .ok stage) ↔
      cookbook.Knows specifier := by
  cases specifier with
  | bare transform => exact ⟨fun _ => trivial, fun _ => ⟨_, rfl⟩⟩
  | prebuilt step => exact ⟨fun _ => trivial, fun _ => ⟨_, rfl⟩⟩
  | overridden name args kwargs =>
      simp only [nested, Specifier.stage, exists_bind_eq_ok_iff, Knows, ← Registry.exists_get_iff]
      exact exists_congr fun step => and_iff_left ⟨_, rfl⟩
  | named name =>
      have hstage : (∃ stage, (Specifier.named name).stage cookbook.steps = .ok stage) ↔
          name ∈ cookbook.steps.names := by
        simp only [Specifier.stage, exists_bind_eq_ok_iff, ← Registry.exists_get_iff]
        exact exists_congr fun step => and_iff_left ⟨_, rfl⟩
      unfold nested Knows
      by_cases hstep : name ∈ cookbook.steps.names
      · simp only [Registry.contains_iff.2 hstep, if_true, hstage, hstep, true_or]
      · simp only [Registry.contains_iff, hstep, if_false, false_or, ← Registry.exists_get?_iff]
        cases cookbook.pipelines.get? name with
        | none => simp only [hstage, hstep, reduceCtorEq, exists_false]
        | some pipeline => exact ⟨fun _ => ⟨pipeline, rfl⟩, fun _ => ⟨_, rfl⟩⟩

theorem stage_overridden_eq_ok_iff {base : String} {positional : Option (List Value)}
    {named : Option (Dict Value)} {stage : Stage Transform} :
    (cookbook.nested (.overridden base positional named)).stage cookbook.steps = .ok stage ↔
      ∃ template, cookbook.steps.get? base = some template ∧
        stage = .step (template.withOverrides positional named) := by
  simp only [nested, Specifier.stage, bind_eq_ok_iff, pure_eq_ok_iff, Registry.get_eq_ok_iff,
    eq_comm (a := stage)]

theorem exists_denotes_iff {document : Document} :
    (∃ stage, cookbook.Denotes document stage) ↔ cookbook.Specifies document := by
  constructor
  · rintro ⟨stage, value, specifier, hvalue, hspecifier, hstage⟩
    exact ⟨value, specifier, hvalue, hspecifier, exists_stage_nested_iff.1 ⟨stage, hstage⟩⟩
  · rintro ⟨value, specifier, hvalue, hspecifier, hknows⟩
    obtain ⟨stage, hstage⟩ := exists_stage_nested_iff.2 hknows
    exact ⟨stage, value, specifier, hvalue, hspecifier, hstage⟩

/-- The place of a document does not matter unless it is refused. -/
theorem specifierOf_denotes_iff (position : Nat) {document : Document} {stage : Stage Transform} :
    (∃ specifier, cookbook.specifierOf position document = .ok specifier ∧
      specifier.stage cookbook.steps = .ok stage) ↔ cookbook.Denotes document stage := by
  unfold specifierOf Denotes
  simp only [bind_eq_ok_iff, mapError_eq_ok_iff, pure_eq_ok_iff]
  constructor
  · rintro ⟨_, ⟨value, hvalue, specifier, hspecifier, rfl⟩, hstage⟩
    exact ⟨value, specifier, hvalue, hspecifier, hstage⟩
  · rintro ⟨value, specifier, hvalue, hspecifier, hstage⟩
    exact ⟨_, ⟨value, hvalue, specifier, hspecifier, rfl⟩, hstage⟩

theorem specifiersOfDocuments_denote_iff (position : Nat) {documents : List Document}
    {stages : List (Stage Transform)} :
    (∃ specifiers, cookbook.specifiersOfDocuments position documents = .ok specifiers ∧
      specifiers.mapM (Specifier.stage cookbook.steps) = .ok stages) ↔
      List.Forall₂ cookbook.Denotes documents stages := by
  induction documents generalizing position stages with
  | nil =>
      rw [List.forall₂_nil_left_iff]
      constructor
      · rintro ⟨specifiers, hspecifiers, hstages⟩
        obtain rfl := Except.ok.inj hspecifiers
        exact (Except.ok.inj hstages).symm
      · rintro rfl
        exact ⟨[], rfl, rfl⟩
  | cons document rest ih =>
      simp only [specifiersOfDocuments, bind_eq_ok_iff, pure_eq_ok_iff, List.forall₂_cons_left_iff,
        ← specifierOf_denotes_iff position, ← ih (position + 1)]
      constructor
      · rintro ⟨_, ⟨first, hfirst, others, hothers, rfl⟩, hmapM⟩
        rw [List.mapM_cons] at hmapM
        simp only [bind_eq_ok_iff, pure_eq_ok_iff] at hmapM
        obtain ⟨stage, hstage, stages, hstages, rfl⟩ := hmapM
        exact ⟨stage, stages, ⟨first, hfirst, hstage⟩, ⟨others, hothers, hstages⟩, rfl⟩
      · rintro ⟨stage, stages, ⟨first, hfirst, hstage⟩, ⟨others, hothers, hstages⟩, rfl⟩
        refine ⟨first :: others, ⟨first, hfirst, others, hothers, rfl⟩, ?_⟩
        rw [List.mapM_cons]
        simp only [bind_eq_ok_iff, pure_eq_ok_iff]
        exact ⟨stage, hstage, stages, hstages, rfl⟩

/-- A pipeline is made of the stages that its documents specify. -/
theorem pipelineOf_eq_ok_iff {definition : PipelineDefinition} {pipeline : Pipeline Transform} :
    cookbook.pipelineOf definition = .ok pipeline ↔
      ∃ stages, List.Forall₂ cookbook.Denotes definition.steps stages ∧
        pipeline = ⟨some definition.name, stages⟩ := by
  simp only [← specifiersOfDocuments_denote_iff 0, pipelineOf, build, Specifier.pipeline,
    mapError_eq_ok_iff, bind_eq_ok_iff, pure_eq_ok_iff]
  constructor
  · rintro ⟨specifiers, hspecifiers, _, ⟨stages, hstages, rfl⟩, rfl⟩
    exact ⟨stages, ⟨specifiers, hspecifiers, hstages⟩, rfl⟩
  · rintro ⟨stages, ⟨specifiers, hspecifiers, hstages⟩, rfl⟩
    exact ⟨specifiers, hspecifiers, _, ⟨stages, hstages, rfl⟩, rfl⟩

theorem exists_pipelineOf_iff {definition : PipelineDefinition} :
    (∃ pipeline, cookbook.pipelineOf definition = .ok pipeline) ↔
      ∀ document ∈ definition.steps, cookbook.Specifies document := by
  simp only [← exists_denotes_iff, ← exists_forall₂_iff, pipelineOf_eq_ok_iff]
  exact ⟨fun ⟨_, stages, hstages, _⟩ => ⟨stages, hstages⟩,
    fun ⟨stages, hstages⟩ => ⟨_, stages, hstages, rfl⟩⟩

theorem get?_addStep (name : String) (entry : Step Transform) (other : String) :
    (cookbook.addStep name entry).cookbook.steps.get? other =
      if name = other then some entry else cookbook.steps.get? other :=
  Registry.get?_insert ..

theorem define_step_eq_ok_iff {definition : StepDefinition} {change : Change} :
    cookbook.define (.step definition) = .ok change ↔ ∃ step,
      cookbook.stepOf definition = .ok step ∧ change = cookbook.addStep definition.name step := by
  simp only [define, bind_eq_ok_iff, pure_eq_ok_iff, eq_comm (a := change)]

theorem define_pipeline_eq_ok_iff {definition : PipelineDefinition} {change : Change} :
    cookbook.define (.pipeline definition) = .ok change ↔ ∃ pipeline,
      cookbook.pipelineOf definition = .ok pipeline ∧
        change = cookbook.registerPipeline definition.name pipeline := by
  simp only [define, bind_eq_ok_iff, pure_eq_ok_iff, mapError_eq_ok_iff, eq_comm (a := change)]

/-- A definition leaves the step alone if it does not have its name. -/
theorem get?_steps_of_define {definition : Definition} {change : Change}
    (hchange : cookbook.define definition = .ok change) {name : String}
    (h : ∀ other, definition = .step other → other.name ≠ name) :
    change.cookbook.steps.get? name = cookbook.steps.get? name := by
  cases definition with
  | step other =>
      obtain ⟨step, -, rfl⟩ := define_step_eq_ok_iff.1 hchange
      exact (get?_addStep ..).trans (if_neg (h other rfl))
  | pipeline other =>
      obtain ⟨pipeline, -, rfl⟩ := define_pipeline_eq_ok_iff.1 hchange
      rfl

theorem define_step_of_error {definition : StepDefinition} {error : ConfigError}
    (h : cookbook.stepOf definition = .error error) :
    cookbook.define (.step definition) = .error error := by
  rw [define, h]
  rfl

theorem define_pipeline_of_error {definition : PipelineDefinition} {error : ConfigError}
    (h : cookbook.pipelineOf definition = .error error) :
    cookbook.define (.pipeline definition) = .error (.pipeline definition.name error) := by
  rw [define, h]
  rfl

theorem exists_define_iff {definition : Definition} :
    (∃ change, cookbook.define definition = .ok change) ↔ definition.Usable cookbook := by
  cases definition with
  | step definition =>
      simp only [define_step_eq_ok_iff]
      constructor
      · rintro ⟨_, step, hstep, -⟩
        obtain ⟨hbase, hargs, hkwargs⟩ := exists_stepOf_iff.1 ⟨step, hstep⟩
        exact .step hbase hargs hkwargs
      · intro h
        cases h with
        | step hbase hargs hkwargs =>
            obtain ⟨step, hstep⟩ := exists_stepOf_iff.2 ⟨hbase, hargs, hkwargs⟩
            exact ⟨_, step, hstep, rfl⟩
  | pipeline definition =>
      simp only [define_pipeline_eq_ok_iff]
      constructor
      · rintro ⟨_, pipeline, hpipeline, -⟩
        exact .pipeline (exists_pipelineOf_iff.1 ⟨pipeline, hpipeline⟩)
      · intro h
        cases h with
        | pipeline hsteps =>
            obtain ⟨pipeline, hpipeline⟩ := exists_pipelineOf_iff.2 hsteps
            exact ⟨_, pipeline, hpipeline, rfl⟩

end Cookbook

/-! ## What is reported -/

/-- The error is about the definition, which it names: the base of a step is not registered or one
    of its arguments is no value, or a pipeline cannot be built. -/
inductive Definition.Blames : Definition → ConfigError → Prop
  | base {definition : StepDefinition} :
      Blames (.step definition) (.unknownReference definition.name ⟨.step, definition.base⟩)
  | argument {definition : StepDefinition} {error : DocumentError} :
      Blames (.step definition) (.step definition.name error)
  | pipeline {definition : PipelineDefinition} {error : ConfigError} :
      Blames (.pipeline definition) (.pipeline definition.name error)

/-- What is reported when the definition is registered. -/
def Definition.announcement (cookbook : Cookbook) : Definition → Message
  | .step definition => cookbook.steps.announcement definition.name
  | .pipeline definition => cookbook.pipelines.announcement definition.name

theorem Definition.announcement_ne_loaded {cookbook : Cookbook} {definition : Definition}
    {source : String} {steps pipelines : Nat} :
    definition.announcement cookbook ≠ .cookbookLoaded source steps pipelines := by
  cases definition with
  | step definition => exact Registry.announcement_ne_loaded
  | pipeline definition => exact Registry.announcement_ne_loaded

namespace Cookbook

variable {cookbook : Cookbook} {definition : Definition}

theorem blames_of_define_eq_error {error : ConfigError}
    (h : cookbook.define definition = .error error) : definition.Blames error := by
  cases definition with
  | step definition =>
      simp only [define, stepOf, bind_eq_error_iff, mapError_eq_error_iff] at h
      obtain (⟨refused, hrefused, rfl⟩ | ⟨_, _, ⟨_, _, rfl⟩ | ⟨_, _, ⟨_, _, rfl⟩ | h⟩⟩) | h := h
      · rw [Registry.eq_of_get_eq_error hrefused]
        exact .base
      · exact .argument
      · exact .argument
      · obtain ⟨_, _, h⟩ := h
        cases h
      · obtain ⟨_, _, h⟩ := h
        cases h
  | pipeline definition =>
      simp only [define, bind_eq_error_iff, mapError_eq_error_iff] at h
      obtain ⟨_, _, rfl⟩ | ⟨_, _, h⟩ := h
      · exact .pipeline
      · cases h

theorem messages_of_define_eq_ok {change : Change}
    (h : cookbook.define definition = .ok change) :
    change.messages = [definition.announcement cookbook] := by
  cases definition with
  | step definition =>
      obtain ⟨step, -, rfl⟩ := define_step_eq_ok_iff.1 h
      exact congrArg (fun message => [message]) (Registry.message_register ..)
  | pipeline definition =>
      obtain ⟨pipeline, -, rfl⟩ := define_pipeline_eq_ok_iff.1 h
      exact congrArg (fun message => [message]) (Registry.message_register ..)

theorem pipelines_of_define_step {definition : StepDefinition} {change : Change}
    (h : cookbook.define (.step definition) = .ok change) :
    change.cookbook.pipelines = cookbook.pipelines := by
  obtain ⟨step, -, rfl⟩ := define_step_eq_ok_iff.1 h
  rfl

end Cookbook

end Pipework
