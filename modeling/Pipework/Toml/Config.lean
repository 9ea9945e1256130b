import Pipework.Cookbook.Config
import Pipework.Toml.Statement

set_option autoImplicit false

/-! # Configurations in TOML

`readConfig?` reads a configuration from a text. A definition is a table with known fields, others
being ignored, or an array with the values of these fields in order. -/

namespace Pipework.Toml

/-! ## Fields -/

/-- The fields of a definition. -/
abbrev Fields := List (String × Document)

namespace Fields

/-- The entry of a mapping whose key is text. -/
def entry? : Document × Document → Option (String × Document)
  | (.text name, document) => some (name, document)
  | _ => none

/-- The fields of a mapping, or of a sequence with the values of `names`. -/
def ofDocument? (names : List String) : Document → Option Fields
  | .mapping entries => some (entries.filterMap entry?)
  | .sequence items => some (names.zip items)
  | _ => none

/-- The text of a field that has to be there. -/
def needText (fields : Fields) (name : String) : Option String :=
  match fields.lookup name with
  | some (.text s) => some s
  | _ => none

/-- The items of a field, which may be left out. -/
def needItems (fields : Fields) (name : String) : Option (List Document) :=
  match fields.lookup name with
  | none => some []
  | some (.sequence items) => some items
  | some _ => none

/-- The named arguments that a mapping is. -/
def namedArguments? : Document → Option (Dict Document)
  | .mapping entries => some (Dict.ofList (entries.filterMap entry?))
  | _ => none

end Fields

/-! ## Definitions -/

/-- The definition of a step. -/
def stepDefinition? (document : Document) : Option StepDefinition := do
  let fields ← Fields.ofDocument? ["name", "from", "args", "kwargs"] document
  let name ← fields.needText "name"
  let base ← fields.needText "from"
  let kwargs ← (fields.lookup "kwargs").mapM Fields.namedArguments?
  return { name, base, args := fields.lookup "args", kwargs }

/-- The definition of a pipeline. -/
def pipelineDefinition? (document : Document) : Option PipelineDefinition := do
  let fields ← Fields.ofDocument? ["name", "steps"] document
  return { name := ← fields.needText "name", steps := ← fields.needItems "steps" }

/-- The configuration that a text holds. -/
def readConfig? (text : String) : Option Config := do
  let fields ← Fields.ofDocument? [] (← Table.ofText? text).document
  let steps ← (← fields.needItems "steps").mapM stepDefinition?
  let pipelines ← (← fields.needItems "pipelines").mapM pipelineDefinition?
  return { steps, pipelines }

end Pipework.Toml
