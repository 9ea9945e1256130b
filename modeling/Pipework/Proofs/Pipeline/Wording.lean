import Pipework.Catalogue
import Pipework.Proofs.Error.Wording
import Pipework.Proofs.Pipeline.Report

set_option autoImplicit false

/-! # Messages of failed runs

The message of a failed run is that of the transform which failed, behind one heading for every
stage on the way to it (`RunError.message_through`). A heading holds the name of a step and a
position. So what a failure of the catalogue says does not depend on values, arguments or keys
except through kinds and numbers (`Catalogue.failures_say_wordings`). -/

namespace Pipework

/-! ## Headings -/

/-- What a stage sets in front of the message of its failure. -/
def Waypoint.heading (point : Waypoint) : String :=
  failureText point.stage.name? (some point.position) ""

/-- The headings on the way to `last`, the outermost first. -/
def Waypoint.headings (last : Waypoint) : List Waypoint → String
  | [] => last.heading
  | point :: outer => point.heading ++ "nested pipeline failed: " ++ headings last outer

theorem failureText_eq_append (step : Option String) (position : Option Nat) (source : String) :
    failureText step position source = failureText step position "" ++ source := by
  unfold failureText
  simp only [String.append_assoc, String.empty_append]

theorem RunError.message_through (error : TransformError) (last : Waypoint)
    (outer : List Waypoint) :
    (through error last outer).message = last.headings outer ++ error.message := by
  induction outer with
  | nil => exact failureText_eq_append ..
  | cons point outer ih =>
      have hinner : (through error last (point :: outer)).source.message =
          "nested pipeline failed: " ++ (last.headings outer ++ error.message) := by
        rw [← ih]
        rfl
      refine (failureText_eq_append ..).trans ?_
      rw [hinner]
      simp only [Waypoint.headings, String.append_assoc]
      rfl

/-! ## Causes -/

/-- The transform of a stage. -/
def Stage.transform : Stage Transform → Transform
  | .step s => s.transform
  | .bare transform => transform

/-- The failure of a built-in transform is that of a fault. -/
theorem Transform.exists_fault_of_builtin {builtin : Builtin} {source : RandomSource}
    {value : Value} {args : Arguments} {error : TransformError}
    (h : ((Transform.builtin builtin).apply source value args).result = .error error) :
    ∃ fault, builtin.apply source value args = .error fault ∧ error = fault.toError := by
  have happly : (builtin.apply source value args).mapError Fault.toError = .error error := h
  cases hresult : builtin.apply source value args with
  | ok output =>
      rw [hresult] at happly
      cases happly
  | error fault =>
      rw [hresult] at happly
      exact ⟨fault, rfl, (Except.error.inj happly).symm⟩

theorem Transform.message_mem_wordings {builtin : Builtin} {source : RandomSource} {value : Value}
    {args : Arguments} {error : TransformError}
    (h : ((Transform.builtin builtin).apply source value args).result = .error error) :
    Text.withoutDigits error.message ∈ Fault.wordings := by
  obtain ⟨fault, -, rfl⟩ := exists_fault_of_builtin h
  exact fault.withoutDigits_message_mem

/-- The stage that a way leads to fails with the error of the way on some state. -/
theorem LeadsInto.exists_apply {label : String} {position : Nat} {stages : List (Stage Transform)}
    {state : Midway} {error : TransformError} {outer : List Waypoint} {last : Waypoint}
    (h : LeadsInto label position stages state error outer last) :
    ∃ state, (last.stage.apply state).result = .error error := by
  induction h with
  | here hnested herror => exact ⟨_, herror⟩
  | inside hnested hinner ih => exact ih
  | behind hok h ih => exact ih

theorem LeadsInto.message_mem_wordings {label : String} {position : Nat}
    {stages : List (Stage Transform)} {state : Midway} {error : TransformError}
    {outer : List Waypoint} {last : Waypoint} {builtin : Builtin}
    (h : LeadsInto label position stages state error outer last)
    (hbuiltin : last.stage.transform = .builtin builtin) :
    Text.withoutDigits error.message ∈ Fault.wordings := by
  obtain ⟨state, herror⟩ := h.exists_apply
  obtain ⟨label, position, stage⟩ := last
  cases stage with
  | step s =>
      rw [Stage.apply, show s.transform = _ from hbuiltin] at herror
      exact Transform.message_mem_wordings herror
  | bare transform =>
      rw [Stage.apply, show transform = _ from hbuiltin] at herror
      exact Transform.message_mem_wordings herror

/-! ## The catalogue -/

/-- Every step of the catalogue is a built-in transform. -/
theorem Catalogue.exists_builtin_of_mem {step : Step Transform} (h : step ∈ steps) :
    ∃ builtin, step.transform = .builtin builtin := by
  have hall : ∀ step ∈ steps, ∃ builtin, step.transform = Transform.builtin builtin := by
    simp [steps, plain, digest, Step.ofTransform, Step.withPositional]
  exact hall step h

/-- **The words of failures are written down once and for all.** Whichever of the 27 transforms of
    the catalogue fails, on whatever value and arguments, its message without decimal digits is one
    of finitely many texts. A step says nothing more than its name. A run fails with the failure of
    a stage that runs no pipeline; its message is that of this failure behind a heading of step name
    and position for every stage on the way, and if the stage is a built-in transform, it is again
    one of the texts. -/
theorem Catalogue.failures_say_wordings :
    steps.length = 27 ∧
    (∀ step ∈ steps, ∀ source value args error,
      (step.transform.apply source value args).result = .error error →
        Text.withoutDigits error.message ∈ Fault.wordings) ∧
    (∀ (step : Step Transform) (source : RandomSource) (value : Value) (failure : RunError),
      (step.apply source value).result = .error failure →
        ∃ cause, (step.transform.apply source value step.arguments).result = .error cause ∧
          failure.message = "step '" ++ step.name ++ "' failed: " ++ cause.message) ∧
    ∀ (pipeline : Pipeline Transform) (source : RandomSource) (value : Value) (failure : RunError),
      (pipeline.run source value).result = .error failure →
        ∃ cause outer last,
          LeadsInto pipeline.label 0 pipeline.stages ⟨value, source⟩ cause outer last ∧
          failure.message = last.headings outer ++ cause.message ∧
          ∀ builtin, last.stage.transform = .builtin builtin →
            Text.withoutDigits cause.message ∈ Fault.wordings := by
  refine ⟨rfl, ?_, ?_, ?_⟩
  · intro step hstep source value args error herror
    obtain ⟨builtin, hbuiltin⟩ := exists_builtin_of_mem hstep
    rw [hbuiltin] at herror
    exact Transform.message_mem_wordings herror
  · intro step source value failure hfailure
    cases hresult : (step.transform.apply source value step.arguments).result with
    | ok output =>
        simp only [Step.apply, Outcome.mapError, hresult] at hfailure
        cases hfailure
    | error cause =>
        simp only [Step.apply, Outcome.mapError, hresult] at hfailure
        obtain rfl := Except.error.inj hfailure
        refine ⟨cause, rfl, ?_⟩
        have hsplit : "' failed: " = "'" ++ " failed: " := by decide
        unfold RunError.message failureText
        simp only [hsplit, String.append_assoc, String.empty_append]
        rfl
  · intro pipeline source value failure hfailure
    cases runStages_failsAlong pipeline.stages pipeline.label 0 ⟨value, source⟩ with
    | ok hresult => cases hfailure.symm.trans hresult
    | error hleads hresult =>
        obtain rfl := Except.error.inj (hfailure.symm.trans hresult)
        exact ⟨_, _, _, hleads, RunError.message_through .., fun _ => hleads.message_mem_wordings⟩

end Pipework
