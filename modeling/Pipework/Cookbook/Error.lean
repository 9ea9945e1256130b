import Pipework.Document.Value
import Pipework.Error.Transform
import Pipework.Specifier

set_option autoImplicit false

/-! # Errors of cookbooks

A `ConfigError` is raised before anything runs: a definition, a specifier or a whole file is of no
use. Its message tells where, and `ConfigError.causes` lists the messages of the errors within,
outermost first, as a report shows them. -/

namespace Pipework

/-! ## Files -/

/-- Why a file was not read. -/
inductive FileError
  | notFound
  | notDirectory
  | isDirectory
  | notUtf8
  | other (reason : String)
deriving DecidableEq, Repr

/-- The reason in words. -/
def FileError.message : FileError → String
  | notFound => "No such file or directory (os error 2)"
  | notDirectory => "Not a directory (os error 20)"
  | isDirectory => "Is a directory (os error 21)"
  | notUtf8 => "stream did not contain valid UTF-8"
  | other reason => reason

/-- The formats of cookbook files. -/
inductive Format
  | yaml
  | toml
deriving DecidableEq, Repr

/-- The name of a format. -/
def Format.name : Format → String
  | yaml => "YAML"
  | toml => "TOML"

/-! ## Configurations -/

/-- Why a configuration is of no use. -/
inductive ConfigError
  /-- A value is no specifier; the position is that of the stage, if it is known. -/
  | specifier (position : Option Nat) (error : SpecifierError)
  /-- An argument in the definition of a step is no value. -/
  | step (name : String) (error : DocumentError)
  /-- A part of a specifier is no value. -/
  | value (error : DocumentError)
  /-- A definition refers to a template that is not registered. -/
  | unknownReference (definition : String) (error : NotFound)
  /-- The definition of a pipeline is of no use. -/
  | pipeline (name : String) (error : ConfigError)
  /-- The file was not read. -/
  | file (error : FileError)
  /-- The file is malformed. -/
  | malformed (format : Format)
  /-- The name of the file tells no format. -/
  | unsupportedFormat (path : String)
deriving DecidableEq, Repr

namespace ConfigError

/-- The place of a specifier. -/
def place (position : Option Nat) : String :=
  match position with
  | some position => s!"specifier #{position}"
  | none => "specifier"

/-- The message of an error. -/
def message : ConfigError → String
  | specifier position error => s!"{place position}: {error.reason}"
  | step name error => s!"step '{name}': {error.message}"
  | value error => error.message
  | unknownReference definition error =>
    s!"'{definition}' refers to an unknown template: {error.message}"
  | pipeline name error => s!"pipeline '{name}': " ++ error.message
  | file error => s!"failed to read cookbook: {error.message}"
  | malformed format => s!"invalid {format.name} cookbook: the document is malformed"
  | unsupportedFormat path =>
    s!"unsupported cookbook format: '{path}' (expected .yaml, .yml or .toml)"

/-- The messages of the errors within an error, outermost first. -/
def causes : ConfigError → List String
  | unknownReference _ error => [error.message]
  | pipeline _ error => error.message :: error.causes
  | file error => [error.message]
  | malformed _ => ["the document is malformed"]
  | _ => []

/-- The error with the position of the specifier that it is about. -/
def atPosition (position : Nat) : ConfigError → ConfigError
  | specifier _ error => specifier (some position) error
  | other => other

end ConfigError

/-! ## Everything a cookbook may refuse -/

/-- Why a cookbook did not do what it was asked to. -/
inductive CookbookError
  | config (error : ConfigError)
  | notFound (error : NotFound)
  | run (error : RunError)

/-- The message of an error. -/
def CookbookError.message : CookbookError → String
  | config error => error.message
  | notFound error => error.message
  | run error => error.message

end Pipework
