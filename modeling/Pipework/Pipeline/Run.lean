import Pipework.Log.Record

set_option autoImplicit false

/-! # Running pipelines

A run threads a value through the stages from left to right and stops at the first failure. It
returns an `Outcome`: the result, the random bytes that are left, and the log. A pipeline that runs
as a stage does the same on the value it is given, and its log is part of the outer one, inside the
outer span. -/

namespace Pipework

/-! ## Outcomes -/

/-- What comes of applying something to a value. -/
structure Outcome (ε : Type) where
  result : Except ε Value
  /-- The random bytes that are left. -/
  source : RandomSource
  log : Log

namespace Outcome

variable {ε δ : Type}

/-- The outcome with its error changed. -/
def mapError (f : ε → δ) (outcome : Outcome ε) : Outcome δ :=
  { outcome with result := outcome.result.mapError f }

/-- The outcome with its log changed. -/
def mapLog (f : Log → Log) (outcome : Outcome ε) : Outcome ε :=
  { outcome with log := f outcome.log }

end Outcome

/-! ## Runs -/

namespace Pipeline

/-- The message that a stage failed. -/
def failure (label : String) (position : Nat) (step : Option String) (error : TransformError) :
    Message :=
  .stageFailed label step position error.kind

/-- A whole run of a pipeline around what its stages do (`body`): it opens a span, and inside the
    span reports the start, what the stages report and, if none failed, the end. -/
def inSpan {τ : Type} (pipeline : Pipeline τ) (spanName : String) (value : Value)
    (body : Outcome RunError) : Outcome RunError :=
  let started : Message := .runStarted pipeline.label pipeline.size value.kind.name
  let span := started.span spanName
  let ending : Log :=
    match body.result with
    | .ok value =>
      [.ofMessage (.runCompleted pipeline.label pipeline.size value.kind.name none)]
    | .error _ => []
  let log : Log := Record.ofMessage started :: body.log ++ ending
  { body with log := ⟨[], .opened span⟩ :: log.map (·.within span) }

/-- The name of the span of a plain run. -/
def plainSpan : String := "pipeline_run"

/-- The name of the span of an observed run. -/
def observedSpan : String := "pipeline_run_observed"

end Pipeline

mutual

/-- What a transform does with a value and arguments. -/
def Transform.apply (transform : Transform) (source : RandomSource) (value : Value)
    (args : Arguments) : Outcome TransformError :=
  match transform with
  | .builtin builtin =>
    { result := (builtin.apply source value args).mapError Fault.toError
      source := source.drop builtin.draws
      log := [] }
  | .host apply => { result := apply value args, source, log := [] }
  | .pipeline ⟨name, stages⟩ =>
    let pipeline : Pipeline Transform := ⟨name, stages⟩
    let body := runStages pipeline.label 0 stages source value
    ((pipeline.inSpan Pipeline.plainSpan value body).mapLog Log.unobserved).mapError
      TransformError.pipeline
termination_by structural transform

/-- What the stages from `position` on do with a value, in a pipeline called `label`. -/
def runStages (label : String) (position : Nat) (stages : List (Stage Transform))
    (source : RandomSource) (value : Value) : Outcome RunError :=
  match stages with
  | [] => { result := .ok value, source, log := [] }
  | .step ⟨name, transform, args⟩ :: rest =>
    let applied := transform.apply source value args
    match applied.result with
    | .ok value =>
      let seen : Record := ⟨[], .observed ⟨position, .step ⟨name, transform, args⟩, value⟩⟩
      (runStages label (position + 1) rest applied.source value).mapLog fun log =>
        applied.log ++ seen :: log
    | .error error =>
      { result := .error ⟨some name, some position, error⟩
        source := applied.source
        log := applied.log ++ [.ofMessage (Pipeline.failure label position (some name) error)] }
  | .bare transform :: rest =>
    let applied := transform.apply source value .empty
    match applied.result with
    | .ok value =>
      let seen : Record := ⟨[], .observed ⟨position, .bare transform, value⟩⟩
      (runStages label (position + 1) rest applied.source value).mapLog fun log =>
        applied.log ++ seen :: log
    | .error error =>
      { result := .error ⟨none, some position, error⟩
        source := applied.source
        log := applied.log ++ [.ofMessage (Pipeline.failure label position none error)] }
termination_by structural stages

end

/-- What a step does with a value by itself. -/
def Step.apply (step : Step Transform) (source : RandomSource) (value : Value) :
    Outcome RunError :=
  (step.transform.apply source value step.arguments).mapError fun error =>
    ⟨some step.name, none, error⟩

namespace Pipeline

/-- A run in a span of the given name, with an observation for every stage that succeeds. -/
def execute (pipeline : Pipeline Transform) (spanName : String) (source : RandomSource)
    (value : Value) : Outcome RunError :=
  pipeline.inSpan spanName value (runStages pipeline.label 0 pipeline.stages source value)

/-- A plain run. -/
def run (pipeline : Pipeline Transform) (source : RandomSource) (value : Value) :
    Outcome RunError :=
  (pipeline.execute plainSpan source value).mapLog Log.unobserved

/-- A run whose observer sees every intermediate value. -/
def runObserved (pipeline : Pipeline Transform) (source : RandomSource) (value : Value) :
    Outcome RunError :=
  pipeline.execute observedSpan source value

end Pipeline

end Pipework
