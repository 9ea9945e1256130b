import Pipework.Codec.Base64
import Pipework.Codec.Hex
import Pipework.Document.Basic
import Pipework.Value.Basic

set_option autoImplicit false

/-! # Documents as values

`Document.toValue` turns configuration data into a value. The tags `!hex` and `!base64` on text make
byte strings, the way in which keys are written in a cookbook; there are no other tags, and the keys
of mappings have to be text. The first part that does not qualify decides the error. -/

namespace Pipework

/-- Why a document is no value. -/
inductive DocumentError
  | keyNotText (found : DocumentKind)
  | tagNotOnText (tag : String) (found : DocumentKind)
  | badHex
  | badBase64
  | unsupportedTag (tag : String)
deriving DecidableEq, Repr

/-- The reason in words. -/
def DocumentError.reason : DocumentError → String
  | keyNotText found => s!"mapping keys must be strings, found {found.name}"
  | tagNotOnText tag found => s!"tag !{tag} expects a string, found {found.name}"
  | badHex => "!hex value is not valid hex"
  | badBase64 => "!base64 value is not valid base64"
  | unsupportedTag tag => s!"unsupported tag !{tag}"

/-- The refusal in words. -/
def DocumentError.message (e : DocumentError) : String := "invalid value in cookbook: " ++ e.reason

namespace Document

/-- The value of an integer: a floating-point number beyond 64 bits with a sign. -/
def intValue (n : Int) : Value :=
  if -0x8000000000000000 ≤ n ∧ n < 0x8000000000000000 then .int (Int64.ofInt n) else .float (.ofInt n)

/-- The bytes of a text under a tag; blanks around the text are ignored. -/
def literal (tag s : String) : Except DocumentError Bytes :=
  let chars := Text.trim s.toList
  if tag = "hex" then
    match Hex.decodePairs chars with
    | some bytes => .ok bytes
    | none => .error .badHex
  else if tag = "base64" then
    match Base64.decode chars with
    | .ok bytes => .ok bytes
    | .error _ => .error .badBase64
  else .error (.unsupportedTag tag)

mutual

/-- The value of a document. -/
def toValue : Document → Except DocumentError Value
  | null => .ok .null
  | bool b => .ok (.bool b)
  | int n => .ok (intValue n)
  | float x => .ok (.float x)
  | text s => .ok (.text s)
  | sequence items => do return .list (← itemValues items)
  | mapping entries => do return .map (← entryValues .empty entries)
  | tagged tag (.text s) => do return .bytes (← literal tag s)
  | tagged tag content => .error (.tagNotOnText tag content.kind)

/-- The values of documents, in order. -/
def itemValues : List Document → Except DocumentError (List Value)
  | [] => .ok []
  | item :: rest => do
    let value ← toValue item
    let rest ← itemValues rest
    return value :: rest

/-- The values of entries, added to those of the entries before. -/
def entryValues (done : Dict Value) :
    List (Document × Document) → Except DocumentError (Dict Value)
  | [] => .ok done
  | (.text key, content) :: rest => do
    let value ← toValue content
    entryValues (done.insert key value) rest
  | (other, _) :: _ => .error (.keyNotText other.kind)

end

end Document

end Pipework
