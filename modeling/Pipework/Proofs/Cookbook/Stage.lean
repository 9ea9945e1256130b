import Pipework.Proofs.Cookbook.Definition
import Pipework.Proofs.Specifier

set_option autoImplicit false

/-! # Stages that values stand for

A value in the definition of a pipeline stands for the step that its name finds, with its overrides.
A name by itself finds a pipeline, too, if no step has it, and that is then a bare stage
(`Cookbook.Fills`). -/

namespace Pipework

/-- The document is a specifier that begins with this name. -/
def Document.Names (document : Document) (name : String) : Prop :=
  ∃ value specifier, document.toValue = .ok value ∧ Specifier.ofValue value = .ok specifier ∧
    value.leadingName? = some name

theorem Document.names_text_iff {text name : String} :
    (Document.text text).Names name ↔ text = name := by
  constructor
  · rintro ⟨value, specifier, hvalue, -, hname⟩
    obtain rfl := Except.ok.inj hvalue
    exact Option.some.inj hname
  · rintro rfl
    exact ⟨.text text, .named text, rfl, rfl, rfl⟩

namespace Cookbook

variable {cookbook : Cookbook} {value : Value} {stage : Stage Transform}

/-- The stage that a value in the definition of a pipeline stands for: a step for its name, with the
    overrides that there are, or for a name by itself that no step has a whole pipeline. -/
inductive Fills (cookbook : Cookbook) (value : Value) : Stage Transform → Prop
  | step {name : String} {step : Step Transform} (hname : value.plainName? = some name)
      (hstep : cookbook.steps.get? name = some step) : Fills cookbook value (.step step)
  | pipeline {name : String} {pipeline : Pipeline Transform}
      (hname : value.plainName? = some name) (hstep : name ∉ cookbook.steps.names)
      (hpipeline : cookbook.pipelines.get? name = some pipeline) :
      Fills cookbook value (.bare (.pipeline pipeline))
  | overridden {name : String} {args : Option (List Value)} {kwargs : Option (Dict Value)}
      {template step : Step Transform}
      (hvalue : Specifier.ofValue value = .ok (.overridden name args kwargs))
      (htemplate : cookbook.steps.get? name = some template) (hname : step.name = template.name)
      (hstep : step.DerivesFrom template [⟨args, kwargs⟩]) : Fills cookbook value (.step step)

theorem nested_of_mem {name : String} (h : name ∈ cookbook.steps.names) :
    cookbook.nested (.named name) = .named name := by
  rw [nested, if_pos (Registry.contains_iff.2 h)]

theorem nested_of_get?_eq_some {name : String} {pipeline : Pipeline Transform}
    (hstep : name ∉ cookbook.steps.names) (h : cookbook.pipelines.get? name = some pipeline) :
    cookbook.nested (.named name) = .bare (.pipeline pipeline) := by
  simp only [nested, Registry.contains_iff, if_neg hstep, h]

theorem nested_of_get?_eq_none {name : String} (h : cookbook.pipelines.get? name = none) :
    cookbook.nested (.named name) = .named name := by
  simp only [nested, h, ite_self]

theorem stage_named_eq_ok_iff {name : String} :
    (Specifier.named name).stage cookbook.steps = .ok stage ↔
      ∃ step, cookbook.steps.get? name = some step ∧ stage = .step step := by
  simp only [Specifier.stage, bind_eq_ok_iff, pure_eq_ok_iff, Registry.get_eq_ok_iff,
    eq_comm (a := stage)]

theorem fills_of_plain {name : String} (hname : value.plainName? = some name) :
    cookbook.Fills value stage ↔
      (cookbook.nested (.named name)).stage cookbook.steps = .ok stage := by
  have hvalue := Specifier.ofValue_eq_named_iff.2 hname
  constructor
  · intro h
    cases h with
    | step hname' hstep =>
        obtain rfl := Option.some.inj (hname.symm.trans hname')
        rw [nested_of_mem (Registry.exists_get?_iff.1 ⟨_, hstep⟩)]
        exact stage_named_eq_ok_iff.2 ⟨_, hstep, rfl⟩
    | pipeline hname' hstep hpipeline =>
        obtain rfl := Option.some.inj (hname.symm.trans hname')
        rw [nested_of_get?_eq_some hstep hpipeline]
        rfl
    | overridden hvalue' _ _ _ => cases hvalue.symm.trans hvalue'
  · intro h
    by_cases hmem : name ∈ cookbook.steps.names
    · rw [nested_of_mem hmem] at h
      obtain ⟨step, hstep, rfl⟩ := stage_named_eq_ok_iff.1 h
      exact .step hname hstep
    · cases hpipeline : cookbook.pipelines.get? name with
      | some pipeline =>
          rw [nested_of_get?_eq_some hmem hpipeline] at h
          obtain rfl := Except.ok.inj h
          exact .pipeline hname hmem hpipeline
      | none =>
          rw [nested_of_get?_eq_none hpipeline] at h
          obtain ⟨step, hstep, rfl⟩ := stage_named_eq_ok_iff.1 h
          exact .step hname hstep

theorem fills_iff :
    cookbook.Fills value stage ↔ ∃ specifier, Specifier.ofValue value = .ok specifier ∧
      (cookbook.nested specifier).stage cookbook.steps = .ok stage := by
  constructor
  · intro h
    cases h with
    | step hname hstep =>
        exact ⟨_, Specifier.ofValue_eq_named_iff.2 hname,
          (fills_of_plain hname).1 (.step hname hstep)⟩
    | pipeline hname hstep hpipeline =>
        exact ⟨_, Specifier.ofValue_eq_named_iff.2 hname,
          (fills_of_plain hname).1 (.pipeline hname hstep hpipeline)⟩
    | overridden hvalue htemplate hname hstep =>
        have hstage := Step.stage_eq_step_overridden_iff.2 ⟨_, hname, hstep, rfl⟩
        exact ⟨_, hvalue, stage_overridden_eq_ok_iff.2 ⟨_, htemplate, hstage⟩⟩
  · rintro ⟨specifier, hvalue, hstage⟩
    obtain ⟨name, -, rfl | ⟨args, kwargs, rfl⟩⟩ := Specifier.named_or_overridden_of_ofValue hvalue
    · exact (fills_of_plain (Specifier.ofValue_eq_named_iff.1 hvalue)).2 hstage
    · obtain ⟨template, htemplate, hstage⟩ := stage_overridden_eq_ok_iff.1 hstage
      obtain ⟨step, hname, hstep, rfl⟩ :=
        (Step.stage_eq_step_overridden_iff (o := ⟨args, kwargs⟩)).1 hstage
      exact .overridden hvalue htemplate hname hstep

theorem fills_iff_of_ofValue {specifier : Specifier}
    (h : Specifier.ofValue value = .ok specifier) :
    cookbook.Fills value stage ↔ (cookbook.nested specifier).stage cookbook.steps = .ok stage := by
  rw [fills_iff, h]
  simp only [Except.ok.injEq, exists_eq_left']

/-- What is not found is always a step. -/
theorem leadingName?_of_stage_eq_error {specifier : Specifier} {error : NotFound}
    (hvalue : Specifier.ofValue value = .ok specifier)
    (h : (cookbook.nested specifier).stage cookbook.steps = .error error) :
    ∃ name, value.leadingName? = some name ∧ error = ⟨.step, name⟩ := by
  have hget : ∀ name, (Specifier.named name).stage cookbook.steps = .error error →
      error = ⟨.step, name⟩ := by
    intro name h
    obtain h | ⟨_, -, h⟩ := bind_eq_error_iff.1 h
    · exact Registry.eq_of_get_eq_error h
    · cases h
  obtain ⟨name, hname, rfl | ⟨args, kwargs, rfl⟩⟩ := Specifier.named_or_overridden_of_ofValue hvalue
  · refine ⟨name, hname, hget name ?_⟩
    by_cases hmem : name ∈ cookbook.steps.names
    · rwa [nested_of_mem hmem] at h
    · cases hpipeline : cookbook.pipelines.get? name with
      | some pipeline =>
          rw [nested_of_get?_eq_some hmem hpipeline] at h
          cases h
      | none => rwa [nested_of_get?_eq_none hpipeline] at h
  · obtain h | ⟨_, -, h⟩ := bind_eq_error_iff.1 h
    · exact ⟨name, hname, Registry.eq_of_get_eq_error h⟩
    · cases h

theorem not_fills_of_overridden {name : String} {args : Option (List Value)}
    {kwargs : Option (Dict Value)}
    (hvalue : Specifier.ofValue value = .ok (.overridden name args kwargs))
    (hname : name ∉ cookbook.steps.names) (stage : Stage Transform) :
    ¬cookbook.Fills value stage := by
  intro h
  obtain ⟨specifier, hspecifier, hstage⟩ := fills_iff.1 h
  obtain rfl := Except.ok.inj (hvalue.symm.trans hspecifier)
  obtain ⟨step, hstep, -⟩ := stage_overridden_eq_ok_iff.1 hstage
  exact hname (Registry.exists_get?_iff.1 ⟨step, hstep⟩)

theorem fills_iff_of_step {name : String} {step : Step Transform}
    (hname : value.plainName? = some name) (hstep : cookbook.steps.get? name = some step) :
    cookbook.Fills value stage ↔ stage = .step step := by
  rw [fills_of_plain hname, nested_of_mem (Registry.exists_get?_iff.1 ⟨step, hstep⟩),
    stage_named_eq_ok_iff, hstep]
  simp only [Option.some.injEq, exists_eq_left']

end Cookbook

end Pipework
