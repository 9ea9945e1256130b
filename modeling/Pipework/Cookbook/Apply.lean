import Pipework.Cookbook.Basic
import Pipework.Cookbook.Config

set_option autoImplicit false

/-! # Applying configurations

`Cookbook.apply` registers the definitions of a configuration one after the other and stops at the
first that is of no use; what was registered before stays. What a definition stands for is found in
the cookbook as it is at that moment, so a definition may refer to every earlier one. -/

namespace Pipework

/-- What came of applying a configuration: the cookbook is there in any case. -/
structure Applied where
  result : Except ConfigError Unit
  cookbook : Cookbook
  messages : List Message

namespace Cookbook

/-! ## Templates of definitions -/

/-- The step that a definition describes. -/
def stepOf (cookbook : Cookbook) (definition : StepDefinition) :
    Except ConfigError (Step Transform) := do
  let base ← (cookbook.steps.get definition.base).mapError (.unknownReference definition.name)
  let positional ← (definition.args.mapM Document.toValue).mapError (.step definition.name)
  let named ←
    (definition.kwargs.mapM (Entries.mapExcept Document.toValue)).mapError (.step definition.name)
  return (base.withOverrides (positional.map Value.toPositional) named).renamed definition.name

/-- The specifier with a registered pipeline as a stage where it names one and no step. -/
def nested (cookbook : Cookbook) (specifier : Specifier) : Specifier :=
  match specifier with
  | .named name =>
    if cookbook.steps.contains name then specifier
    else
      match cookbook.pipelines.get? name with
      | some pipeline => .bare (.pipeline pipeline)
      | none => specifier
  | _ => specifier

/-- The specifier that a document in the definition of a pipeline stands for. Any error is given the
    position, but only one about a specifier tells it. -/
def specifierOf (cookbook : Cookbook) (position : Nat) (document : Document) :
    Except ConfigError Specifier := do
  let value ← document.toValue.mapError fun error => (ConfigError.value error).atPosition position
  let specifier ← (Specifier.ofValue value).mapError fun error =>
    (ConfigError.specifier none error).atPosition position
  return cookbook.nested specifier

/-- The specifiers that documents stand for, the first of which is at `position`. -/
def specifiersOfDocuments (cookbook : Cookbook) (position : Nat) :
    List Document → Except ConfigError (List Specifier)
  | [] => .ok []
  | document :: rest => do
    let specifier ← cookbook.specifierOf position document
    let specifiers ← cookbook.specifiersOfDocuments (position + 1) rest
    return specifier :: specifiers

/-- The pipeline that a definition describes. -/
def pipelineOf (cookbook : Cookbook) (definition : PipelineDefinition) :
    Except ConfigError (Pipeline Transform) := do
  let specifiers ← cookbook.specifiersOfDocuments 0 definition.steps
  let pipeline ← (cookbook.build specifiers).mapError (.unknownReference definition.name)
  return pipeline.named definition.name

/-! ## Registering definitions -/

/-- Registers the template that a definition describes. -/
def define (cookbook : Cookbook) : Definition → Except ConfigError Change
  | .step definition => do
    return cookbook.addStep definition.name (← cookbook.stepOf definition)
  | .pipeline definition => do
    let pipeline ← (cookbook.pipelineOf definition).mapError (.pipeline definition.name)
    return cookbook.registerPipeline definition.name pipeline

/-- Registers the templates that definitions describe, up to the first that is of no use. -/
def defineAll (cookbook : Cookbook) : List Definition → Applied
  | [] => ⟨.ok (), cookbook, []⟩
  | definition :: rest =>
    match cookbook.define definition with
    | .error e => ⟨.error e, cookbook, []⟩
    | .ok change =>
      let applied := change.cookbook.defineAll rest
      { applied with messages := change.messages ++ applied.messages }

/-- Registers everything that a configuration defines, and reports the end if there is no error;
    `origin` tells where the configuration is from. -/
def apply (cookbook : Cookbook) (config : Config) (origin : String) : Applied :=
  let applied := cookbook.defineAll config.definitions
  match applied.result with
  | .error _ => applied
  | .ok _ =>
    let loaded : Message := .cookbookLoaded origin config.steps.length config.pipelines.length
    { applied with messages := applied.messages ++ [loaded] }

/-- Where a configuration is from that is in no file. -/
def inlineOrigin : String := "<inline>"

/-- The catalogue with everything that a configuration defines. -/
def ofConfig (config : Config) (origin : String) : Applied :=
  let start := withCatalogue
  let applied := start.cookbook.apply config origin
  { applied with messages := start.messages ++ applied.messages }

end Cookbook

end Pipework
