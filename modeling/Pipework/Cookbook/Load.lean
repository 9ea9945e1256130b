import Pipework.Cookbook.Apply
import Pipework.Toml.Config
import Pipework.Yaml.Config

set_option autoImplicit false

/-! # Loading cookbook files

A cookbook file is YAML or TOML, which the end of its name tells. Reading is left to whoever has the
files: everything here takes the content of a path as a function. -/

namespace Pipework

/-- The content of the file at a path. -/
abbrev FileReader := String → Except FileError String

/-! ## Formats -/

namespace Format

/-- The last component of a path that is not `.`; a path that ends with `..` has none. -/
def fileName? (path : List Char) : Option (List Char) :=
  let parts := (Text.splitOn '/' path).filter fun part => !(part.isEmpty || part == ['.'])
  parts.getLast?.filter (· != ['.', '.'])

/-- What follows the last dot of a file name, if something comes before that dot. -/
def extension? (name : List Char) : Option (List Char) :=
  match (Text.splitOn '.' name).reverse with
  | _ :: [] => none
  | _ :: [[]] => none
  | last :: _ => some last
  | [] => none

/-- The format that the end of a path tells; case does not matter. -/
def ofPath? (path : String) : Option Format :=
  match ((fileName? path.toList).bind extension?).map fun chars =>
      String.ofList (chars.map Char.toLower) with
  | some "yaml" | some "yml" => some yaml
  | some "toml" => some toml
  | _ => none

end Format

/-! ## Files -/

namespace Config

/-- The configuration that a text in a format holds. -/
def parse (format : Format) (text : String) : Except ConfigError Config :=
  let config? :=
    match format with
    | .yaml => Yaml.readConfig? text
    | .toml => Toml.readConfig? text
  match config? with
  | some config => .ok config
  | none => .error (.malformed format)

/-- The configuration in the file at a path. -/
def load (read : FileReader) (path : String) : Except ConfigError Config :=
  match Format.ofPath? path with
  | none => .error (.unsupportedFormat path)
  | some format => do
    let text ← (read path).mapError .file
    parse format text

end Config

/-- The catalogue with everything that the file at a path defines. -/
def Cookbook.load (read : FileReader) (path : String) : Except ConfigError Cookbook := do
  let config ← Config.load read path
  let applied := Cookbook.ofConfig config path
  applied.result
  return applied.cookbook

end Pipework
