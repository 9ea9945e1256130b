import Pipework.Codec.Hex
import Pipework.Json.Printer
import Pipework.Value.Json

set_option autoImplicit false

/-! # Values for people

How a value is shown on a terminal, and the three ways in which a transform takes its input. -/

namespace Pipework.Value

/-- A value in readable form: byte strings as hexadecimal text, containers as JSON if they have a
    JSON form and as their kind and size if not. -/
def render (value : Value) : String :=
  match value with
  | null => "null"
  | bool b => if b then "true" else "false"
  | int n => String.ofList (Decimal.intChars n.toInt)
  | float x => x.plainText
  | text s => s
  | bytes b => String.ofList (Hex.encode false b)
  | list _ | map _ | sealedBox _ =>
    match value.toJson with
    | .ok json => json.render .compact
    | .error _ => s!"<{value.kind.name} of {value.size} entries>"

/-- The text of a value that has to be text. -/
def expectText : Value → Except Fault String
  | text s => .ok s
  | other => .error (.wrongKind .text other.kind)

/-- The bytes of a value that has to be a byte string. -/
def expectBytes : Value → Except Fault Bytes
  | bytes b => .ok b
  | other => .error (.wrongKind .bytes other.kind)

/-- The bytes of a value that has to be a byte string or text; text is taken in UTF-8. -/
def expectByteLike : Value → Except Fault Bytes
  | bytes b => .ok b
  | text s => .ok (Utf8.encode s)
  | other => .error (.wrongKind .textOrBytes other.kind)

end Pipework.Value
