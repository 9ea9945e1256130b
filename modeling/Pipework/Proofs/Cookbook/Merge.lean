import Pipework.Proofs.Cookbook.Position
import Pipework.Proofs.Cookbook.Stage

set_option autoImplicit false

/-! # Configurations one after the other and in one

The definitions of steps look at steps only, and the definition of a pipeline looks at the names that
its documents begin with (`Cookbook.pipelineOf_congr`). So steps may be defined before pipelines that
do not name them (`Cookbook.defineAll_swap`), and a configuration may be divided in two, or two be
written as one (`Cookbook.apply_merged`). -/

namespace Pipework

/-- The definitions of two configurations in one, those of the first one in front. -/
def Config.merged (first second : Config) : Config :=
  ⟨first.steps ++ second.steps, first.pipelines ++ second.pipelines⟩

/-! ## What the definition of a pipeline looks at -/

theorem Registry.get_congr {α : Type} [Template α] {registry other : Registry α} {name : String}
    (h : registry.get? name = other.get? name) : registry.get name = other.get name := by
  unfold get
  rw [h]

namespace Cookbook

variable {steps others : Registry (Step Transform)} {pipelines : Registry (Pipeline Transform)}

theorem nested_named_congr {name : String} (h : steps.get? name = others.get? name) :
    nested ⟨steps, pipelines⟩ (.named name) = nested ⟨others, pipelines⟩ (.named name) := by
  have hcontains : steps.contains name = others.contains name := by
    unfold Registry.contains
    rw [h]
  simp only [nested, hcontains]

theorem stage_named_congr {name : String} (h : steps.get? name = others.get? name) :
    (nested ⟨steps, pipelines⟩ (.named name)).stage steps =
      (nested ⟨steps, pipelines⟩ (.named name)).stage others := by
  have hname : (Specifier.named name).stage steps = (Specifier.named name).stage others := by
    simp only [Specifier.stage, Registry.get_congr h]
  by_cases hmem : name ∈ steps.names
  · rwa [nested_of_mem hmem]
  · cases hpipeline : pipelines.get? name with
    | some pipeline =>
        rw [nested_of_get?_eq_some hmem hpipeline]
        rfl
    | none => rwa [nested_of_get?_eq_none hpipeline]

/-- A document that names only steps that are the same in both is read in the same way, and stands
    for the same stage. -/
theorem specifierOf_congr {document : Document}
    (h : ∀ name, document.Names name → steps.get? name = others.get? name) (position : Nat) :
    specifierOf ⟨steps, pipelines⟩ position document =
        specifierOf ⟨others, pipelines⟩ position document ∧
      ∀ specifier, specifierOf ⟨steps, pipelines⟩ position document = .ok specifier →
        specifier.stage steps = specifier.stage others := by
  by_cases hread : document.IsSpecifier
  · obtain ⟨value, specifier, hvalue, hspecifier⟩ := hread
    have hok : ∀ steps, specifierOf ⟨steps, pipelines⟩ position document =
        .ok (nested ⟨steps, pipelines⟩ specifier) := by
      intro steps
      simp only [specifierOf, bind_eq_ok_iff, mapError_eq_ok_iff, pure_eq_ok_iff]
      exact ⟨value, hvalue, specifier, hspecifier, rfl⟩
    obtain ⟨name, hname, hform⟩ := Specifier.named_or_overridden_of_ofValue hspecifier
    have hget : steps.get? name = others.get? name :=
      h name ⟨value, specifier, hvalue, hspecifier, hname⟩
    simp only [hok, Except.ok.injEq, forall_eq']
    rcases hform with rfl | ⟨args, kwargs, rfl⟩
    · exact ⟨nested_named_congr hget, stage_named_congr hget⟩
    · refine ⟨rfl, ?_⟩
      simp only [nested, Specifier.stage, Registry.get_congr hget]
  · obtain ⟨error, hrefused⟩ := Document.exists_refused hread position
    rw [specifierOf_of_refused hrefused, specifierOf_of_refused hrefused]
    refine ⟨rfl, ?_⟩
    intro specifier hspecifier
    cases hspecifier

theorem specifiersOfDocuments_congr {documents : List Document}
    (h : ∀ document ∈ documents, ∀ name, document.Names name → steps.get? name = others.get? name)
    (position : Nat) :
    specifiersOfDocuments ⟨steps, pipelines⟩ position documents =
        specifiersOfDocuments ⟨others, pipelines⟩ position documents ∧
      ∀ specifiers, specifiersOfDocuments ⟨steps, pipelines⟩ position documents = .ok specifiers →
        specifiers.mapM (Specifier.stage steps) = specifiers.mapM (Specifier.stage others) := by
  induction documents generalizing position with
  | nil =>
      refine ⟨rfl, ?_⟩
      intro specifiers hspecifiers
      obtain rfl := Except.ok.inj hspecifiers
      rfl
  | cons document rest ih =>
      rw [List.forall_mem_cons] at h
      obtain ⟨hfirst, hstage⟩ := specifierOf_congr h.1 position
      obtain ⟨hrest, hstages⟩ := ih h.2 (position + 1)
      refine ⟨by rw [specifiersOfDocuments, specifiersOfDocuments, hfirst, hrest], ?_⟩
      intro specifiers hspecifiers
      rw [specifiersOfDocuments] at hspecifiers
      obtain ⟨specifier, hspecifier, hspecifiers⟩ := bind_eq_ok_iff.1 hspecifiers
      obtain ⟨others, hothers, hspecifiers⟩ := bind_eq_ok_iff.1 hspecifiers
      obtain rfl := pure_eq_ok_iff.1 hspecifiers
      rw [List.mapM_cons, List.mapM_cons, hstage specifier hspecifier, hstages others hothers]

/-- **What a pipeline looks at.** The definition of a pipeline has the same outcome if the steps that
    its documents name are the same. -/
theorem pipelineOf_congr {definition : PipelineDefinition}
    (h : ∀ document ∈ definition.steps, ∀ name, document.Names name →
      steps.get? name = others.get? name) :
    pipelineOf ⟨steps, pipelines⟩ definition = pipelineOf ⟨others, pipelines⟩ definition := by
  obtain ⟨hread, hstages⟩ := @specifiersOfDocuments_congr steps others pipelines _ h 0
  unfold pipelineOf
  rw [← hread]
  cases hspecifiers : specifiersOfDocuments ⟨steps, pipelines⟩ 0 definition.steps with
  | error error => rfl
  | ok specifiers =>
      have hbuild : build ⟨steps, pipelines⟩ specifiers = build ⟨others, pipelines⟩ specifiers := by
        unfold build Specifier.pipeline
        rw [hstages specifiers hspecifiers]
      exact congrArg (fun built => built.mapError (ConfigError.unknownReference definition.name) >>=
        fun pipeline => pure (pipeline.named definition.name)) hbuild

/-- **The invariant of two cookbooks** in which the same is defined: if each definition is refused in
    both, or changes both and keeps `R`, so do all of them together. -/
theorem defineAll_relates {R : Cookbook → Cookbook → Prop} {definitions : List Definition}
    (hdefine : ∀ book other definition, definition ∈ definitions → R book other →
      (∃ error, book.define definition = .error error ∧ other.define definition = .error error) ∨
      ∃ change change', book.define definition = .ok change ∧
        other.define definition = .ok change' ∧ R change.cookbook change'.cookbook)
    {book other : Cookbook} (h : R book other) :
    (book.defineAll definitions).result = (other.defineAll definitions).result ∧
      R (book.defineAll definitions).cookbook (other.defineAll definitions).cookbook := by
  induction definitions generalizing book other with
  | nil => exact ⟨rfl, h⟩
  | cons definition rest ih =>
      obtain ⟨error, hbook, hother⟩ | ⟨change, change', hbook, hother, hchange⟩ :=
        hdefine book other definition List.mem_cons_self h
      · rw [defineAll_cons_of_error hbook, defineAll_cons_of_error hother]
        exact ⟨rfl, h⟩
      · rw [defineAll_cons_of_ok hbook, defineAll_cons_of_ok hother]
        refine ih ?_ hchange
        intro book other next hmem
        exact hdefine book other next (List.mem_cons_of_mem _ hmem)

/-- The pipelines that are defined are the same if the steps that they name are. -/
theorem defineAll_map_pipeline_congr {definitions : List PipelineDefinition}
    (h : ∀ definition ∈ definitions, ∀ document ∈ definition.steps, ∀ name,
      document.Names name → steps.get? name = others.get? name) :
    (defineAll ⟨steps, pipelines⟩ (definitions.map .pipeline)).result =
        (defineAll ⟨others, pipelines⟩ (definitions.map .pipeline)).result ∧
      (defineAll ⟨steps, pipelines⟩ (definitions.map .pipeline)).cookbook.pipelines =
        (defineAll ⟨others, pipelines⟩ (definitions.map .pipeline)).cookbook.pipelines := by
  let R : Cookbook → Cookbook → Prop := fun book other =>
    book.steps = steps ∧ other.steps = others ∧ book.pipelines = other.pipelines
  have hdefine : ∀ book other definition, definition ∈ definitions.map Definition.pipeline →
      R book other →
      (∃ error, book.define definition = .error error ∧ other.define definition = .error error) ∨
      ∃ change change', book.define definition = .ok change ∧
        other.define definition = .ok change' ∧ R change.cookbook change'.cookbook := by
    rintro ⟨_, inside⟩ ⟨_, _⟩ _ hmem ⟨rfl, rfl, rfl⟩
    obtain ⟨definition, hdefinition, rfl⟩ := List.mem_map.1 hmem
    have hcongr := @pipelineOf_congr _ _ inside definition (h definition hdefinition)
    cases hpipeline : pipelineOf ⟨_, inside⟩ definition with
    | error error =>
        exact Or.inl ⟨_, define_pipeline_of_error hpipeline,
          define_pipeline_of_error (hcongr.symm.trans hpipeline)⟩
    | ok pipeline =>
        exact Or.inr ⟨_, _, define_pipeline_eq_ok_iff.2 ⟨pipeline, hpipeline, rfl⟩,
          define_pipeline_eq_ok_iff.2 ⟨pipeline, hcongr.symm.trans hpipeline, rfl⟩, rfl, rfl, rfl⟩
  obtain ⟨hresult, -, -, hpipelines⟩ :=
    @defineAll_relates R _ hdefine ⟨steps, pipelines⟩ ⟨others, pipelines⟩ ⟨rfl, rfl, rfl⟩
  exact ⟨hresult, hpipelines⟩

/-- Steps are defined without a look at pipelines. -/
theorem defineAll_map_step_congr (steps : Registry (Step Transform))
    (pipelines others : Registry (Pipeline Transform)) (definitions : List StepDefinition) :
    (defineAll ⟨steps, pipelines⟩ (definitions.map .step)).result =
        (defineAll ⟨steps, others⟩ (definitions.map .step)).result ∧
      (defineAll ⟨steps, pipelines⟩ (definitions.map .step)).cookbook.steps =
        (defineAll ⟨steps, others⟩ (definitions.map .step)).cookbook.steps := by
  refine defineAll_relates (R := fun book other => book.steps = other.steps) ?_ rfl
  rintro ⟨inside, _⟩ ⟨_, _⟩ _ hmem rfl
  obtain ⟨definition, -, rfl⟩ := List.mem_map.1 hmem
  cases hstep : stepOf ⟨inside, pipelines⟩ definition with
  | error error => exact Or.inl ⟨_, define_step_of_error hstep, define_step_of_error hstep⟩
  | ok step =>
      exact Or.inr ⟨_, _, define_step_eq_ok_iff.2 ⟨step, hstep, rfl⟩,
        define_step_eq_ok_iff.2 ⟨step, hstep, rfl⟩, rfl⟩

end Cookbook

/-! ## The same success -/

/-- Both succeed or none does, and if they do, they leave the same cookbook. -/
def Applied.Agrees (applied other : Applied) : Prop :=
  (applied.result = .ok () ↔ other.result = .ok ()) ∧
    (applied.result = .ok () → applied.cookbook = other.cookbook)

theorem Applied.Agrees.andThen {applied other : Applied} (h : applied.Agrees other)
    {next after : Cookbook → Applied} (hnext : ∀ book, (next book).Agrees (after book)) :
    (applied.andThen next).Agrees (other.andThen after) := by
  have hsame := hnext applied.cookbook
  constructor
  · rw [result_andThen_eq_ok_iff, result_andThen_eq_ok_iff, ← h.1]
    refine and_congr_right fun hok => ?_
    rw [← h.2 hok]
    exact hsame.1
  · intro hok
    obtain ⟨hfirst, hsecond⟩ := result_andThen_eq_ok_iff.1 hok
    rw [andThen_of_ok hfirst, andThen_of_ok (h.1.1 hfirst), ← h.2 hfirst]
    exact hsame.2 hsecond

theorem Applied.agrees_refl (applied : Applied) : applied.Agrees applied := ⟨Iff.rfl, fun _ => rfl⟩

namespace Cookbook

theorem eq_of_registries {cookbook other : Cookbook} (hsteps : cookbook.steps = other.steps)
    (hpipelines : cookbook.pipelines = other.pipelines) : cookbook = other := by
  cases cookbook
  cases other
  simp only at hsteps hpipelines
  rw [hsteps, hpipelines]

/-- **Steps and pipelines in either order.** Steps may be defined before pipelines that do not name
    them, or behind them. -/
theorem defineAll_swap (cookbook : Cookbook) {steps : List StepDefinition}
    {pipelines : List PipelineDefinition}
    (h : ∀ step ∈ steps, ∀ pipeline ∈ pipelines, ∀ document ∈ pipeline.steps,
      ¬document.Names step.name) :
    (cookbook.defineAll (steps.map .step ++ pipelines.map .pipeline)).Agrees
      (cookbook.defineAll (pipelines.map .pipeline ++ steps.map .step)) := by
  obtain ⟨before, inside⟩ := cookbook
  rw [defineAll_append, defineAll_append]
  generalize hstepped : defineAll ⟨before, inside⟩ (steps.map .step) = stepped
  generalize hpiped : defineAll ⟨before, inside⟩ (pipelines.map .pipeline) = piped
  have hstepsPipelines : stepped.cookbook.pipelines = inside :=
    hstepped ▸ pipelines_defineAll_map_step steps
  have hpipedSteps : piped.cookbook.steps = before :=
    hpiped ▸ steps_defineAll_map_pipeline pipelines
  have hsteppedBook : stepped.cookbook = ⟨stepped.cookbook.steps, inside⟩ :=
    eq_of_registries rfl hstepsPipelines
  have hpipedBook : piped.cookbook = ⟨before, piped.cookbook.pipelines⟩ :=
    eq_of_registries hpipedSteps rfl
  -- the pipelines do not notice the steps, nor the steps the pipelines
  have hnames : ∀ pipeline ∈ pipelines, ∀ document ∈ pipeline.steps, ∀ name,
      document.Names name → before.get? name = stepped.cookbook.steps.get? name := by
    intro pipeline hpipeline document hdocument name hname
    have hunnamed : ∀ step, .step step ∈ steps.map Definition.step → step.name ≠ name := by
      rintro step hmem rfl
      obtain ⟨other, hother, hstep⟩ := List.mem_map.1 hmem
      obtain rfl := Definition.step.inj hstep
      exact h other hother pipeline hpipeline document hdocument hname
    rw [← hstepped]
    exact (@get?_steps_defineAll ⟨before, inside⟩ _ name hunnamed).symm
  obtain ⟨hpipedResult, hpipedPipelines⟩ :=
    @defineAll_map_pipeline_congr before stepped.cookbook.steps inside pipelines hnames
  obtain ⟨hsteppedResult, hsteppedSteps⟩ :=
    defineAll_map_step_congr before inside piped.cookbook.pipelines steps
  rw [hpiped] at hpipedResult hpipedPipelines
  rw [hstepped] at hsteppedResult hsteppedSteps
  rw [← hsteppedBook] at hpipedResult hpipedPipelines
  rw [← hpipedBook] at hsteppedResult hsteppedSteps
  constructor
  · rw [Applied.result_andThen_eq_ok_iff, Applied.result_andThen_eq_ok_iff, ← hpipedResult,
      ← hsteppedResult]
    exact and_comm
  · intro hok
    obtain ⟨hfirst, hsecond⟩ := Applied.result_andThen_eq_ok_iff.1 hok
    rw [Applied.andThen_of_ok hfirst, Applied.andThen_of_ok (hpipedResult.trans hsecond)]
    refine eq_of_registries ?_ ?_
    · exact (steps_defineAll_map_pipeline pipelines).trans hsteppedSteps
    · exact hpipedPipelines.symm.trans (pipelines_defineAll_map_step steps).symm

/-! ## One configuration or two -/

theorem defineAll_append_agrees {definitions others : List Definition}
    (h : ∀ cookbook : Cookbook,
      (cookbook.defineAll definitions).Agrees (cookbook.defineAll others))
    (cookbook : Cookbook) (front back : List Definition) :
    (cookbook.defineAll (front ++ definitions ++ back)).Agrees
      (cookbook.defineAll (front ++ others ++ back)) := by
  simp only [defineAll_append]
  exact ((Applied.agrees_refl _).andThen h).andThen fun _ => Applied.agrees_refl _

/-- **A configuration in two parts.** If the pipelines of the first configuration do not name steps
    that the second one defines, then both in one can be applied exactly if the second one can be
    applied behind the first one, and the same is registered in the end, in the same order. -/
theorem apply_merged {first second : Config}
    (h : ∀ step ∈ second.steps, ∀ pipeline ∈ first.pipelines, ∀ document ∈ pipeline.steps,
      ¬document.Names step.name) (cookbook : Cookbook) (origin origin' origin'' : String) :
    let merged := cookbook.apply (first.merged second) origin
    let one := cookbook.apply first origin'
    let two := one.cookbook.apply second origin''
    (merged.result = .ok () ↔ one.result = .ok () ∧ two.result = .ok ()) ∧
      (merged.result = .ok () → merged.cookbook = two.cookbook) := by
  intro merged one two
  have hagrees : (cookbook.defineAll (first.merged second).definitions).Agrees
      (cookbook.defineAll (first.definitions ++ second.definitions)) := by
    have hswap := defineAll_append_agrees (fun book => defineAll_swap book h) cookbook
      (first.steps.map .step) (second.pipelines.map .pipeline)
    simpa only [Config.definitions, Config.merged, List.map_append, List.append_assoc] using hswap
  rw [defineAll_append] at hagrees
  have hcookbook : one.cookbook = (cookbook.defineAll first.definitions).cookbook := cookbook_apply
  have hmerged : merged.result = (cookbook.defineAll (first.merged second).definitions).result :=
    result_apply
  have hone : one.result = (cookbook.defineAll first.definitions).result := result_apply
  have htwo : two.result = (one.cookbook.defineAll second.definitions).result := result_apply
  constructor
  · rw [hmerged, hone, htwo, hcookbook, hagrees.1]
    exact Applied.result_andThen_eq_ok_iff
  · intro hok
    rw [hmerged] at hok
    have hfirst := (Applied.result_andThen_eq_ok_iff.1 (hagrees.1.1 hok)).1
    calc merged.cookbook
        = (cookbook.defineAll (first.merged second).definitions).cookbook := cookbook_apply
      _ = ((cookbook.defineAll first.definitions).andThen
            (·.defineAll second.definitions)).cookbook := hagrees.2 hok
      _ = (one.cookbook.defineAll second.definitions).cookbook := by
          rw [Applied.andThen_of_ok hfirst, hcookbook]
      _ = two.cookbook := cookbook_apply.symm

/-- Behind a pipeline the second configuration defines a step of its name, and another step out of
    one of the first configuration. -/
theorem apply_merged_shadowed :
    let first : Config := ⟨[⟨"short_key", "derive_key", some (.int 16), none⟩],
      [⟨"key", [.text "short_key", .text "bytes_to_hex"]⟩]⟩
    let second : Config := ⟨[⟨"long_key", "short_key", some (.int 64), none⟩,
      ⟨"key", "long_key", none, none⟩], [⟨"both", [.text "key", .text "sha256_hex"]⟩]⟩
    let cookbook := withCatalogue.cookbook
    let one := cookbook.apply first inlineOrigin
    let merged := cookbook.apply (first.merged second) inlineOrigin
    merged.result = .ok () ∧
      merged.cookbook = (one.cookbook.apply second inlineOrigin).cookbook := by
  intro first second cookbook one merged
  have hunnamed : ∀ step ∈ second.steps, ∀ pipeline ∈ first.pipelines,
      ∀ document ∈ pipeline.steps, ¬document.Names step.name := by
    simp only [first, second, List.forall_mem_cons, List.not_mem_nil, false_implies, implies_true,
      and_true, Document.names_text_iff]
    decide
  obtain ⟨hresult, hcookbook⟩ :=
    apply_merged hunnamed cookbook inlineOrigin inlineOrigin inlineOrigin
  have hok : merged.result = .ok () := hresult.2 ⟨rfl, rfl⟩
  exact ⟨hok, hcookbook hok⟩

/-- A pipeline of the first configuration that names a step of the second one is refused by itself
    only. -/
example :
    let first : Config := ⟨[], [⟨"key", [.text "short_key"]⟩]⟩
    let second : Config := ⟨[⟨"short_key", "derive_key", some (.int 16), none⟩], []⟩
    let cookbook := withCatalogue.cookbook
    (cookbook.apply (first.merged second) inlineOrigin).result = .ok () ∧
      (cookbook.apply first inlineOrigin).result =
        .error (.pipeline "key" (.unknownReference "key" ⟨.step, "short_key"⟩)) :=
  ⟨rfl, rfl⟩

end Cookbook

end Pipework
