import Pipework.Catalogue
import Pipework.Cookbook.Error
import Pipework.Pipeline.Run

set_option autoImplicit false

/-! # Cookbooks

A `Cookbook` holds the registered steps and pipelines. It is an ordinary value: what is looked up is
a copy, and what registers returns a new cookbook together with what it has to report. -/

namespace Pipework

/-- The registered steps and pipelines. -/
structure Cookbook where
  steps : Registry (Step Transform)
  pipelines : Registry (Pipeline Transform)

/-- What came of changing a cookbook: the new one, and the messages to report in order. -/
structure Change where
  cookbook : Cookbook
  messages : List Message

namespace Cookbook

/-- Nothing is registered. -/
def empty : Cookbook := ⟨.empty, .empty⟩

/-! ## Registering -/

/-- Registers a step template. -/
def addStep (cookbook : Cookbook) (name : String) (step : Step Transform) : Change :=
  let registration := cookbook.steps.register name step
  ⟨{ cookbook with steps := registration.registry }, [registration.message]⟩

/-- Registers a pipeline template as it is. -/
def registerPipeline (cookbook : Cookbook) (name : String) (pipeline : Pipeline Transform) :
    Change :=
  let registration := cookbook.pipelines.register name pipeline
  ⟨{ cookbook with pipelines := registration.registry }, [registration.message]⟩

/-- Registers a pipeline template under a name that the pipeline takes over. -/
def addPipeline (cookbook : Cookbook) (name : String) (pipeline : Pipeline Transform) : Change :=
  cookbook.registerPipeline name (pipeline.named name)

end Cookbook

namespace Change

/-- No change. -/
def none (cookbook : Cookbook) : Change := ⟨cookbook, []⟩

/-- The change with another one on top of it. -/
def andThen (change : Change) (next : Cookbook → Change) : Change :=
  let second := next change.cookbook
  ⟨second.cookbook, change.messages ++ second.messages⟩

end Change

namespace Cookbook

/-- Registers the steps of the catalogue. -/
def addCatalogueSteps (cookbook : Cookbook) : Change :=
  Catalogue.steps.foldl (fun change step => change.andThen (·.addStep step.name step))
    (.none cookbook)

/-- Registers the pipelines of the catalogue. -/
def addCatalogueRecipes (cookbook : Cookbook) : Change :=
  Catalogue.recipes.foldl
    (fun change recipe => change.andThen (·.registerPipeline recipe.name recipe.pipeline))
    (.none cookbook)

/-- A cookbook with the catalogue. -/
def withCatalogue : Change := empty.addCatalogueSteps.andThen addCatalogueRecipes

/-! ## Building pipelines -/

/-- The pipeline without a name whose stages are specified. -/
def build (cookbook : Cookbook) (specifiers : List Specifier) :
    Except NotFound (Pipeline Transform) :=
  Specifier.pipeline cookbook.steps specifiers

/-- The specifiers that values are, the first of which stands at `position`. -/
def specifiersOf (position : Nat) : List Value → Except ConfigError (List Specifier)
  | [] => .ok []
  | value :: rest => do
    let specifier ← (Specifier.ofValue value).mapError fun error =>
      (ConfigError.specifier none error).atPosition position
    let specifiers ← specifiersOf (position + 1) rest
    return specifier :: specifiers

/-- The pipeline without a name whose stages are specified by values. All values are read before any
    name is looked up. -/
def buildFromValues (cookbook : Cookbook) (values : List Value) :
    Except CookbookError (Pipeline Transform) := do
  let specifiers ← (specifiersOf 0 values).mapError .config
  (cookbook.build specifiers).mapError .notFound

/-! ## Running -/

/-- What comes of running the registered pipeline of that name. -/
def run (cookbook : Cookbook) (name : String) (source : RandomSource) (value : Value) :
    Outcome CookbookError :=
  match cookbook.pipelines.get name with
  | .error e => { result := .error (.notFound e), source, log := [] }
  | .ok pipeline => (pipeline.run source value).mapError .run

end Cookbook

end Pipework
