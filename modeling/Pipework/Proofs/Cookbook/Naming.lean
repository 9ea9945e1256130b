import Pipework.Proofs.Cookbook.Apply
import Pipework.Proofs.Cookbook.Stage
import Pipework.Proofs.Pipeline.Fold

set_option autoImplicit false

/-! # Names of templates

A template is registered under a name and has one of its own, which is the one that failures report.
The two are the same in every cookbook that comes of the catalogue by applying configurations and
adding pipelines (`Cookbook.Reachable.namedByKey`), even if a configuration was refused halfway. So
the stages of a pipeline have the names that its definition gives, and failures report these
(`Cookbook.Reachable.stages_have_specified_names`). -/

namespace Pipework

namespace Cookbook

/-! ## Cookbooks whose templates have the names that they stand under -/

/-- All templates have the names under which they are registered. -/
structure NamedByKey (cookbook : Cookbook) : Prop where
  steps : cookbook.steps.Each fun name step => step.name = name
  pipelines : cookbook.pipelines.Each fun name pipeline => pipeline.name = some name

theorem namedByKey_empty : empty.NamedByKey :=
  ⟨Registry.each_empty _, Registry.each_empty _⟩

variable {cookbook : Cookbook}

theorem NamedByKey.addStep (h : cookbook.NamedByKey) {name : String} {step : Step Transform}
    (hname : step.name = name) : (cookbook.addStep name step).cookbook.NamedByKey :=
  ⟨h.steps.insert hname, h.pipelines⟩

theorem NamedByKey.registerPipeline (h : cookbook.NamedByKey) {name : String}
    {pipeline : Pipeline Transform} (hname : pipeline.name = some name) :
    (cookbook.registerPipeline name pipeline).cookbook.NamedByKey :=
  ⟨h.steps, h.pipelines.insert hname⟩

theorem NamedByKey.addPipeline (h : cookbook.NamedByKey) (name : String)
    (pipeline : Pipeline Transform) : (cookbook.addPipeline name pipeline).cookbook.NamedByKey :=
  h.registerPipeline rfl

/-! ## The catalogue -/

/-- What every change of a series keeps up is kept up by all of them together. -/
theorem foldl_andThen_induction {α : Type} {P : Cookbook → Prop} {next : α → Cookbook → Change}
    {items : List α} (hnext : ∀ item (book : Cookbook), P book → P (next item book).cookbook)
    {change : Change} (h : P change.cookbook) :
    P (items.foldl (fun change item => change.andThen (next item)) change).cookbook := by
  induction items generalizing change with
  | nil => exact h
  | cons item rest ih => exact ih (hnext item _ h)

theorem NamedByKey.addCatalogueSteps (h : cookbook.NamedByKey) :
    cookbook.addCatalogueSteps.cookbook.NamedByKey :=
  foldl_andThen_induction (fun _ _ hbook => hbook.addStep rfl) h

theorem NamedByKey.addCatalogueRecipes (h : cookbook.NamedByKey) :
    cookbook.addCatalogueRecipes.cookbook.NamedByKey :=
  foldl_andThen_induction (fun _ _ hbook => hbook.registerPipeline rfl) h

theorem namedByKey_withCatalogue : withCatalogue.cookbook.NamedByKey :=
  namedByKey_empty.addCatalogueSteps.addCatalogueRecipes

/-! ## Configurations -/

/-- A step that is derived from another one does not keep the name of its base. -/
theorem name_of_stepOf {definition : StepDefinition} {step : Step Transform}
    (h : cookbook.stepOf definition = .ok step) : step.name = definition.name := by
  simp only [stepOf, bind_eq_ok_iff, pure_eq_ok_iff] at h
  obtain ⟨_, -, _, -, _, -, rfl⟩ := h
  rfl

theorem NamedByKey.define (h : cookbook.NamedByKey) {definition : Definition} {change : Change}
    (hchange : cookbook.define definition = .ok change) : change.cookbook.NamedByKey := by
  cases definition with
  | step definition =>
      obtain ⟨step, hstep, rfl⟩ := define_step_eq_ok_iff.1 hchange
      exact h.addStep (name_of_stepOf hstep)
  | pipeline definition =>
      obtain ⟨pipeline, hpipeline, rfl⟩ := define_pipeline_eq_ok_iff.1 hchange
      obtain ⟨stages, -, rfl⟩ := pipelineOf_eq_ok_iff.1 hpipeline
      exact h.registerPipeline rfl

theorem NamedByKey.apply (h : cookbook.NamedByKey) (config : Config) (origin : String) :
    (cookbook.apply config origin).cookbook.NamedByKey := by
  rw [cookbook_apply]
  exact defineAll_induction (fun _ _ _ _ hbook hchange => hbook.define hchange) h

/-! ## Everything that can be reached -/

/-- The cookbooks that come of the catalogue by applying configurations, usable or not, and adding
    pipelines. -/
inductive Reachable : Cookbook → Prop
  | start : Reachable withCatalogue.cookbook
  | apply {cookbook : Cookbook} (h : Reachable cookbook) (config : Config) (origin : String) :
      Reachable (cookbook.apply config origin).cookbook
  | addPipeline {cookbook : Cookbook} (h : Reachable cookbook) (name : String)
      (pipeline : Pipeline Transform) : Reachable (cookbook.addPipeline name pipeline).cookbook

theorem Reachable.namedByKey (h : cookbook.Reachable) : cookbook.NamedByKey := by
  induction h with
  | start => exact namedByKey_withCatalogue
  | apply _ config origin ih => exact ih.apply config origin
  | addPipeline _ name pipeline ih => exact ih.addPipeline name pipeline

/-! ## Stages and their failures -/

/-- What a name in the definition of a pipeline finds: the step of this name, of which overrides
    change no more than the arguments, or if no step has the name the pipeline that has it, as a bare
    stage. -/
inductive Finds (cookbook : Cookbook) (name : String) : Stage Transform → Prop
  | step {template step : Step Transform} (htemplate : cookbook.steps.get? name = some template)
      (htransform : step.transform = template.transform) (hname : step.name = name) :
      Finds cookbook name (.step step)
  | pipeline {pipeline : Pipeline Transform} (hmem : name ∉ cookbook.steps.names)
      (hpipeline : cookbook.pipelines.get? name = some pipeline)
      (hname : pipeline.name = some name) : Finds cookbook name (.bare (.pipeline pipeline))

theorem Finds.name?_eq {name : String} {stage : Stage Transform} (h : cookbook.Finds name stage) :
    stage.name? = if name ∈ cookbook.steps.names then some name else none := by
  cases h with
  | step htemplate _ hname =>
      rw [if_pos (Registry.exists_get?_iff.1 ⟨_, htemplate⟩), Stage.name?, hname]
  | pipeline hmem _ _ => rw [if_neg hmem, Stage.name?]

theorem NamedByKey.finds_of_denotes (h : cookbook.NamedByKey) {document : Document}
    {stage : Stage Transform} (hstage : cookbook.Denotes document stage) :
    ∃ name, document.Names name ∧ cookbook.Finds name stage := by
  obtain ⟨value, specifier, hvalue, hspecifier, hstage⟩ := hstage
  obtain ⟨name, hname, hform⟩ := Specifier.named_or_overridden_of_ofValue hspecifier
  refine ⟨name, ⟨value, specifier, hvalue, hspecifier, hname⟩, ?_⟩
  rcases hform with rfl | ⟨args, kwargs, rfl⟩
  · have hplain := Specifier.ofValue_eq_named_iff.1 hspecifier
    cases (fills_of_plain hplain).2 hstage with
    | step hname' hget =>
        obtain rfl := Option.some.inj (hplain.symm.trans hname')
        exact .step hget rfl (h.steps _ _ hget)
    | pipeline hname' hmem hget =>
        obtain rfl := Option.some.inj (hplain.symm.trans hname')
        exact .pipeline hmem hget (h.pipelines _ _ hget)
    | overridden hvalue' hget => cases hspecifier.symm.trans hvalue'
  · -- overrides leave the name of a step as it is
    obtain ⟨template, hget, rfl⟩ := stage_overridden_eq_ok_iff.1 hstage
    exact .step hget rfl (h.steps name template hget)

/-- The pipeline has a stage for each of the documents, which is what the name in the document
    finds. A run that fails at the stage reports that name, or none if the stage is a pipeline. -/
structure StagesNamed (cookbook : Cookbook) (documents : List Document)
    (pipeline : Pipeline Transform) : Prop where
  length_eq : pipeline.stages.length = documents.length
  stage : ∀ (position : Nat) (document : Document), documents[position]? = some document →
    ∃ name stage, document.Names name ∧ pipeline.stages[position]? = some stage ∧
      cookbook.Finds name stage ∧
      ∀ source value error, pipeline.FailsAt position source value error →
        let failure : RunError :=
          ⟨if name ∈ cookbook.steps.names then some name else none, some position, error⟩
        (pipeline.run source value).result = .error failure ∧
          (pipeline.runObserved source value).result = .error failure
  /-- There are no failures but those of stages. -/
  failsAt : ∀ source value error, (pipeline.run source value).result = .error error →
    ∃ position, position < documents.length ∧ pipeline.FailsAt position source value error.source

theorem NamedByKey.stagesNamed (h : cookbook.NamedByKey) {definition : PipelineDefinition}
    {pipeline : Pipeline Transform} (hpipeline : cookbook.pipelineOf definition = .ok pipeline) :
    cookbook.StagesNamed definition.steps pipeline := by
  obtain ⟨stages, hstages, rfl⟩ := pipelineOf_eq_ok_iff.1 hpipeline
  refine ⟨hstages.length_eq.symm, ?_, ?_⟩
  · intro position document hdocument
    obtain ⟨hlt, rfl⟩ := List.getElem?_eq_some_iff.1 hdocument
    have hlt' : position < stages.length := hstages.length_eq ▸ hlt
    have hstage := List.getElem?_eq_getElem hlt'
    have hdenotes : cookbook.Denotes definition.steps[position] stages[position] :=
      hstages.get hlt hlt'
    obtain ⟨name, hname, hfinds⟩ := h.finds_of_denotes hdenotes
    refine ⟨name, stages[position], hname, hstage, hfinds, ?_⟩
    intro source value error hfails failure
    have hrun := hfails.result_run hstage
    rw [hfinds.name?_eq] at hrun
    exact ⟨hrun, hrun⟩
  · intro source value error herror
    obtain ⟨position, stage, before, hstage, hbefore, hfails⟩ := Pipeline.exists_failsAt herror
    refine ⟨position, ?_, stage, before, hstage, hbefore, hfails⟩
    exact hstages.length_eq ▸ (List.getElem?_eq_some_iff.1 hstage).1

/-- The definition of a pipeline, when it is applied, registers the pipeline that it describes, and
    this stays until a later definition replaces it. -/
theorem exists_pipelineOf_of_apply_take {config : Config} {origin : String} {count : Nat}
    {definition : PipelineDefinition}
    (hdefinition : config.definitions[count]? = some (.pipeline definition))
    (h : (cookbook.apply (config.take (count + 1)) origin).result = .ok ()) :
    ∃ pipeline,
      (cookbook.apply (config.take count) origin).cookbook.pipelineOf definition = .ok pipeline ∧
      (cookbook.apply (config.take (count + 1)) origin).cookbook.pipelines.get? definition.name =
        some pipeline ∧
      ((∀ later, .pipeline later ∈ config.definitions.drop (count + 1) →
          later.name ≠ definition.name) →
        (cookbook.apply config origin).cookbook.pipelines.get? definition.name =
          some pipeline) := by
  have htake : config.definitions.take (count + 1) =
      config.definitions.take count ++ [.pipeline definition] := by
    rw [List.take_add_one, hdefinition, Option.toList_some]
  rw [result_apply, Config.definitions_take, htake] at h
  obtain ⟨pipeline, hpipeline, hstays⟩ := exists_pipelineOf_of_defineAll h
  refine ⟨pipeline, ?_, ?_, ?_⟩
  · rwa [cookbook_apply_take]
  · rw [cookbook_apply_take, htake]
    exact hstays [] nofun
  · intro hlater
    rw [cookbook_apply, Config.definitions_eq_append hdefinition]
    exact hstays _ hlater

/-- **Stages have the names that are specified.** In every cookbook that can be reached, templates
    have the names under which they are registered. So if applying a configuration gets as far as
    the definition of a pipeline, what this registers has for each document a stage of the name in
    it, and a run that fails there reports that name. -/
theorem Reachable.stages_have_specified_names (h : cookbook.Reachable) :
    cookbook.NamedByKey ∧
    ∀ (config : Config) (origin : String) (count : Nat) (definition : PipelineDefinition),
      config.definitions[count]? = some (.pipeline definition) →
      (cookbook.apply (config.take (count + 1)) origin).result = .ok () →
      ∃ pipeline,
        (cookbook.apply (config.take (count + 1)) origin).cookbook.pipelines.get? definition.name =
          some pipeline ∧
        ((∀ later, .pipeline later ∈ config.definitions.drop (count + 1) →
            later.name ≠ definition.name) →
          (cookbook.apply config origin).cookbook.pipelines.get? definition.name =
            some pipeline) ∧
        (cookbook.apply (config.take count) origin).cookbook.StagesNamed definition.steps
          pipeline := by
  refine ⟨h.namedByKey, ?_⟩
  intro config origin count definition hdefinition hok
  obtain ⟨pipeline, hpipeline, hget, hstays⟩ := exists_pipelineOf_of_apply_take hdefinition hok
  have hbefore := (h.apply (config.take count) origin).namedByKey
  exact ⟨pipeline, hget, hstays, hbefore.stagesNamed hpipeline⟩

/-- A step from a configuration that was refused, and an added pipeline that had another name. -/
theorem reachable_failures_name_stages :
    let refused : Config := ⟨[⟨"digest", "sha256", none, none⟩, ⟨"lost", "missing", none, none⟩], []⟩
    let added : Pipeline Transform :=
      ⟨some "other", [.step (Catalogue.plain "bytes_to_hex" .bytesToHex)]⟩
    let start := (withCatalogue.cookbook.apply refused inlineOrigin).cookbook
    let cookbook := (start.addPipeline "hexed" added).cookbook
    let config : Config := ⟨[], [⟨"both", [.text "digest", .text "hexed"]⟩]⟩
    cookbook.NamedByKey ∧
      ∃ pipeline, (cookbook.apply config inlineOrigin).cookbook.pipelines.get? "both" =
          some pipeline ∧
        ∀ source value error,
          (pipeline.FailsAt 0 source value error →
            (pipeline.run source value).result = .error ⟨some "digest", some 0, error⟩) ∧
          (pipeline.FailsAt 1 source value error →
            (pipeline.run source value).result = .error ⟨none, some 1, error⟩) := by
  intro refused added start cookbook config
  have hreachable : cookbook.Reachable :=
    (Reachable.start.apply refused inlineOrigin).addPipeline "hexed" added
  obtain ⟨hnamed, hstages⟩ := hreachable.stages_have_specified_names
  obtain ⟨pipeline, -, hstays, hpipeline⟩ := hstages config inlineOrigin 0
    ⟨"both", [.text "digest", .text "hexed"]⟩ rfl rfl
  refine ⟨hnamed, pipeline, hstays nofun, ?_⟩
  intro source value error
  constructor
  · intro hfails
    obtain ⟨name, _, hname, -, -, hreports⟩ := hpipeline.stage 0 (.text "digest") rfl
    obtain rfl := Document.names_text_iff.1 hname
    have hdigest : "digest" ∈ (cookbook.apply (config.take 0) inlineOrigin).cookbook.steps.names :=
      by decide
    rw [(hreports source value error hfails).1, if_pos hdigest]
  · intro hfails
    obtain ⟨name, _, hname, -, -, hreports⟩ := hpipeline.stage 1 (.text "hexed") rfl
    obtain rfl := Document.names_text_iff.1 hname
    have hhexed : "hexed" ∉ (cookbook.apply (config.take 0) inlineOrigin).cookbook.steps.names :=
      by decide
    rw [(hreports source value error hfails).1, if_neg hhexed]

end Cookbook

end Pipework
