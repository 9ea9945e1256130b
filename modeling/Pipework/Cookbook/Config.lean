import Pipework.Data.Dict
import Pipework.Document.Basic

set_option autoImplicit false

/-! # Configurations

A `Config` is the content of a file of definitions. A definition makes a new template out of known
ones: a step out of a step, with other arguments, or a pipeline out of its stages. Those of steps
come before those of pipelines (`Config.definitions`), and each may use what the ones before it
make. -/

namespace Pipework

/-- Makes a step named `name` out of the one named `base`. -/
structure StepDefinition where
  name : String
  base : String
  /-- Positional arguments, if they are overridden. -/
  args : Option Document
  /-- Named arguments, if any are overridden. -/
  kwargs : Option (Dict Document)

/-- Makes a pipeline, whose stages are given by specifiers. -/
structure PipelineDefinition where
  name : String
  steps : List Document

/-- The content of a cookbook file. -/
structure Config where
  steps : List StepDefinition
  pipelines : List PipelineDefinition

/-- A template that is to be registered. -/
inductive Definition
  | step (definition : StepDefinition)
  | pipeline (definition : PipelineDefinition)

namespace Config

/-- No definitions. -/
def empty : Config := ⟨[], []⟩

/-- The definitions in the order in which they are registered. -/
def definitions (config : Config) : List Definition :=
  config.steps.map .step ++ config.pipelines.map .pipeline

end Config

end Pipework
