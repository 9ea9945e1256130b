import Pipework.Codec.Base64
import Pipework.Error.Fault
import Pipework.Json.Basic

set_option autoImplicit false

/-! # Values as JSON

`Value.toJson` gives the document of a value. Byte strings and numbers that are not finite have
none; a sealed box becomes the object of its fields in base64. `Value.ofJson` reads documents back,
a whole number beyond 64 bits with a sign as the nearest floating-point number. -/

namespace Pipework

/-! ## Sealed boxes -/

namespace SealedBox

/-- The fields of a box in base64, by key. -/
def fields (box : SealedBox) : List (String × String) :=
  [(BoxField.nonce, box.nonce), (.associated, box.associated), (.ciphertext, box.ciphertext),
    (.tag, box.tag)].map fun (field, bytes) => (field.key, String.ofList (Base64.encode bytes))

/-- The map form of a box. -/
def toValue (box : SealedBox) : Value :=
  .map (Dict.ofList (box.fields.map fun (key, text) => (key, .text text)))

/-- The document of a box. -/
def toJson (box : SealedBox) : Json :=
  .object (Dict.ofList (box.fields.map fun (key, text) => (key, .text text)))

/-- The bytes of a field of the map form: byte strings as they are, text in base64. -/
def field (entries : Dict Value) (field : BoxField) : Except Fault Bytes :=
  match entries.get? field.key with
  | none => .error (.box (.missing field))
  | some (.bytes b) => .ok b
  | some (.text s) =>
    match Base64.decode s.toList with
    | .ok b => .ok b
    | .error _ => .error (.box (.notBase64 field))
  | some other => .error (.box (.wrongKind field other.kind))

/-- The associated data of the map form, which may be left out or null. -/
def associatedField (entries : Dict Value) : Except Fault Bytes :=
  match entries.get? BoxField.associated.key with
  | none => .ok []
  | some .null => .ok []
  | some _ => field entries .associated

/-- The box that a value is or is the map form of. -/
def ofValue (value : Value) : Except Fault SealedBox :=
  match value with
  | .sealedBox box => .ok box
  | .map entries => do
    let nonce ← field entries .nonce
    let associated ← associatedField entries
    let ciphertext ← field entries .ciphertext
    let tag ← field entries .tag
    return { nonce, associated, ciphertext, tag }
  | other => .error (.wrongKind .sealedBox other.kind)

end SealedBox

/-! ## Documents -/

namespace Value

/-- The value of a JSON number. -/
def ofNumber : Number → Value
  | .int n => int n
  | .large n _ => float (.ofNat n.toNat)
  | .float x _ => float x

mutual

/-- The value of a document. -/
def ofJson : Json → Value
  | .null => null
  | .bool b => bool b
  | .number n => ofNumber n
  | .text s => text s
  | .array items => list (ofJsonItems items)
  | .object members => map (ofJsonMembers members)

/-- The values of documents. -/
def ofJsonItems : List Json → List Value
  | [] => []
  | item :: rest => ofJson item :: ofJsonItems rest

/-- The values of members, under the same keys. -/
def ofJsonMembers : {lo : Option String} → Entries Json lo → Entries Value lo
  | _, .nil => .nil
  | _, .cons key above member rest => .cons key above (ofJson member) (ofJsonMembers rest)

end

mutual

/-- The document of a value, or the fault of the first part that has none. -/
def toJson : Value → Except Fault Json
  | null => .ok .null
  | bool b => .ok (.bool b)
  | int n => .ok (.number (.int n))
  | float x =>
    if finite : x.isFinite = true then .ok (.number (.float x finite)) else .error .nonFinite
  | text s => .ok (.text s)
  | bytes _ => .error (.wrongKind .json .bytes)
  | list items => do return .array (← toJsonItems items)
  | map entries => do return .object (← toJsonMembers entries)
  | sealedBox box => .ok box.toJson

/-- The documents of values, in order. -/
def toJsonItems : List Value → Except Fault (List Json)
  | [] => .ok []
  | item :: rest => do
    let item ← toJson item
    let rest ← toJsonItems rest
    return item :: rest

/-- The documents of entries, in key order. -/
def toJsonMembers : {lo : Option String} → Entries Value lo → Except Fault (Entries Json lo)
  | _, .nil => .ok .nil
  | _, .cons key above value rest => do
    let member ← toJson value
    let rest ← toJsonMembers rest
    return .cons key above member rest

end

end Value

end Pipework
