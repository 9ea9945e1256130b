import Pipework.Arguments
import Pipework.Transform.Builtin

set_option autoImplicit false

/-! # Steps, stages and pipelines

A step is a transform with a name and bound arguments. A stage of a pipeline is a step or a bare
transform, which has neither. What transforms are is left open here (`τ`) and closed by `Transform`:
a built-in one, a function of the host program, or a whole pipeline, so pipelines nest. -/

namespace Pipework

/-! ## Steps -/

/-- A named transform with its arguments. -/
structure Step (τ : Type) where
  name : String
  transform : τ
  arguments : Arguments

namespace Step

variable {τ : Type}

/-- A step without arguments. -/
def ofTransform (name : String) (transform : τ) : Step τ := ⟨name, transform, .empty⟩

/-- The step with other positional arguments. -/
def withPositional (step : Step τ) (positional : List Value) : Step τ :=
  { step with arguments := step.arguments.withPositional positional }

/-- The step with `value` bound to the argument `name`. -/
def withNamed (step : Step τ) (name : String) (value : Value) : Step τ :=
  { step with arguments := step.arguments.withNamed name value }

/-- The step with overrides, as in `Arguments.merged`. -/
def withOverrides (step : Step τ) (positional : Option (List Value))
    (named : Option (Dict Value)) : Step τ :=
  { step with arguments := step.arguments.merged positional named }

/-- The step under another name. -/
def renamed (step : Step τ) (name : String) : Step τ := { step with name }

/-- A short description: the name, and whether arguments are bound. -/
def label (step : Step τ) : String :=
  "Step<" ++ step.name ++ (if step.arguments.positional.isEmpty then "" else " *args") ++
    (if step.arguments.named.isEmpty then "" else " **kwargs") ++ ">"

/-- The step in diagnostic form. -/
def form (step : Step τ) : String :=
  "Step \x7b name: " ++ Text.quoted step.name ++ ", arguments: " ++ step.arguments.form ++
    ", .. \x7d"

end Step

/-! ## Stages -/

/-- An entry of a pipeline. -/
inductive Stage (τ : Type)
  | step (step : Step τ)
  | bare (transform : τ)

namespace Stage

variable {τ : Type}

/-- The name of the step. -/
def name? : Stage τ → Option String
  | .step s => some s.name
  | .bare _ => none

/-- The step of a stage that is one. -/
def step? : Stage τ → Option (Step τ)
  | .step s => some s
  | .bare _ => none

/-- A short description. -/
def label : Stage τ → String
  | .step s => s.label
  | .bare _ => "<bare transform>"

/-- The stage in diagnostic form. -/
def form : Stage τ → String
  | .step s => "Step(" ++ s.form ++ ")"
  | .bare _ => "Bare"

end Stage

/-! ## Pipelines -/

/-- Stages that run from left to right. -/
structure Pipeline (τ : Type) where
  name : Option String
  stages : List (Stage τ)

namespace Pipeline

variable {τ : Type}

/-- No stages and no name. -/
def empty : Pipeline τ := ⟨none, []⟩

/-- The pipeline under a name. -/
def named (pipeline : Pipeline τ) (name : String) : Pipeline τ :=
  { pipeline with name := some name }

/-- The pipeline with one more stage at its end. -/
def push (pipeline : Pipeline τ) (stage : Stage τ) : Pipeline τ :=
  { pipeline with stages := pipeline.stages ++ [stage] }

/-- How many stages there are. -/
def size (pipeline : Pipeline τ) : Nat := pipeline.stages.length

/-- There are no stages. -/
def isEmpty (pipeline : Pipeline τ) : Bool := pipeline.stages.isEmpty

/-- The name in messages. -/
def label (pipeline : Pipeline τ) : String := pipeline.name.getD "<anonymous>"

/-- The first step of that name. -/
def step? (pipeline : Pipeline τ) (name : String) : Option (Step τ) :=
  pipeline.stages.findSome? fun stage => stage.step?.filter (·.name == name)

/-- `stages` with the first step of that name changed. -/
def modifyFirst (name : String) (change : Step τ → Step τ) : List (Stage τ) → List (Stage τ)
  | [] => []
  | .step step :: rest =>
    if step.name = name then .step (change step) :: rest
    else .step step :: modifyFirst name change rest
  | .bare transform :: rest => .bare transform :: modifyFirst name change rest

/-- The pipeline with the first step of that name changed. -/
def modifyStep (pipeline : Pipeline τ) (name : String) (change : Step τ → Step τ) : Pipeline τ :=
  { pipeline with stages := modifyFirst name change pipeline.stages }

/-- The pipeline in diagnostic form. -/
def form (pipeline : Pipeline τ) : String :=
  recordForm "Pipeline"
    [("name", optionForm (pipeline.name.map Text.quoted)),
      ("stages", Text.bracketed (pipeline.stages.map Stage.form))]

end Pipeline

/-! ## Transforms -/

/-- What a stage does with a value. -/
inductive Transform
  /-- A transform of the catalogue. -/
  | builtin (builtin : Builtin)
  /-- A function of the program that uses the library. -/
  | host (apply : Value → Arguments → Except TransformError Value)
  /-- All stages of a pipeline; arguments are of no use to it. -/
  | pipeline (pipeline : Pipeline Transform)

end Pipework
