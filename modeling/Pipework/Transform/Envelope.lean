import Pipework.Crypto.Gcm
import Pipework.Crypto.Pbkdf2
import Pipework.Json.Parser
import Pipework.Random
import Pipework.Text.Split
import Pipework.Transform.Parameter
import Pipework.Value.Json
import Pipework.Value.Render

set_option autoImplicit false

/-! # Secret envelopes

An envelope seals a payload under a secret: a key is derived from the secret with a salt and a
number of rounds of its own, and the payload is encrypted with it. The envelope is a map of two
texts: `ep` holds the rounds, the salt, the initialization vector and the tag, separated by dollar
signs, and `data` holds the ciphertext; binary parts are in base64. Rounds, salt and vector are
drawn for every envelope. -/

namespace Pipework

/-! ## Envelopes -/

/-- What an envelope holds. -/
structure Envelope where
  rounds : Nat
  salt : Bytes
  iv : Gcm.Nonce
  tag : Bytes
  data : Bytes

namespace Envelope

/-- The fewest rounds an envelope may have. -/
def minRounds : Nat := 100

/-- How many numbers of rounds there are. -/
def roundsSpread : Nat := 1000

/-- The most rounds an envelope may have. -/
def maxRounds : Nat := minRounds + roundsSpread - 1

/-- The length of the salt of a new envelope. -/
def saltLength : Nat := 12

/-- The character between parameters. -/
def separator : Char := '$'

/-- The key for an envelope. -/
def key (secret salt : Bytes) (rounds : Nat) : Aes.Key :=
  ⟨Pbkdf2.derive secret salt rounds 32, Or.inr (Pbkdf2.length_derive secret salt rounds 32)⟩

/-- The envelope that seals `payload`. -/
def close (secret : Bytes) (rounds : Nat) (salt : Bytes) (iv : Gcm.Nonce) (payload : Bytes) :
    Envelope :=
  let (data, tag) := Gcm.sealed (key secret salt rounds) iv [] payload
  { rounds, salt, iv, tag, data }

/-- The payload of an envelope, if the secret is right and nothing was changed. -/
def open? (secret : Bytes) (envelope : Envelope) : Option Bytes :=
  Gcm.opened (key secret envelope.salt envelope.rounds) envelope.iv [] envelope.data envelope.tag

/-! ## Map form -/

/-- The parameters of an envelope as text. -/
def parameterChars (envelope : Envelope) : List Char :=
  Decimal.digitChars envelope.rounds ++ separator :: Base64.encode envelope.salt ++
    separator :: Base64.encode envelope.iv.bytes ++ separator :: Base64.encode envelope.tag

/-- The map form of an envelope. -/
def toValue (envelope : Envelope) : Value :=
  .map (Dict.ofList
    [(EnvelopePart.parameters.name, .text (String.ofList envelope.parameterChars)),
      (EnvelopePart.data.name, .text (String.ofList (Base64.encode envelope.data)))])

/-- The text under the name of a part. -/
def textField (entries : Dict Value) (part : EnvelopePart) : Except Fault String :=
  match (entries.get? part.name).bind Value.text? with
  | some s => .ok s
  | none => .error (.envelope (.missingText part))

/-- A part in base64. -/
def decodePart (part : EnvelopePart) (chars : List Char) : Except Fault Bytes :=
  match Base64.decode chars with
  | .ok bytes => .ok bytes
  | .error _ => .error (.envelope (.notBase64 part))

/-- The number of rounds. -/
def decodeRounds (chars : List Char) : Except Fault Nat :=
  match Text.nat32? chars with
  | none => .error (.envelope .roundsNotNumber)
  | some rounds =>
    if minRounds ≤ rounds ∧ rounds ≤ maxRounds then .ok rounds
    else .error (.envelope (.roundsOutOfRange minRounds maxRounds))

/-- The envelope whose map form `entries` is. Everything is checked before any key is derived. -/
def ofEntries (entries : Dict Value) : Except Fault Envelope := do
  let parameters ← textField entries .parameters
  match Text.splitOn separator parameters.toList with
  | [rounds, salt, iv, tag] =>
    let rounds ← decodeRounds rounds
    let salt ← decodePart .salt salt
    let iv ← decodePart .iv iv
    let tag ← decodePart .tag tag
    if hiv : iv.length = Gcm.nonceLength then
      if tag.length = Gcm.tagLength then
        let data ← decodePart .data (← textField entries .data).toList
        return { rounds, salt, iv := ⟨iv, hiv⟩, tag, data }
      else .error (.envelope (.wrongLength .tag Gcm.tagLength tag.length))
    else .error (.envelope (.wrongLength .iv Gcm.nonceLength iv.length))
  | parts => .error (.envelope (.parameterCount 4 parts.length))

end Envelope

/-! ## Transforms -/

namespace Transform

/-- The bytes that an envelope seals for a value: those of text and byte strings, and the JSON text
    of everything else. -/
def payload (value : Value) : Except Fault Bytes :=
  match value with
  | .text s => .ok (Utf8.encode s)
  | .bytes b => .ok b
  | other => do return Utf8.encode ((← other.toJson).render .compact)

/-- The value of a payload: what it spells if it is JSON, and the bytes themselves if not. -/
def ofPayload (bytes : Bytes) : Value :=
  match Utf8.decode bytes with
  | .error _ => .bytes bytes
  | .ok text =>
    match Json.parse text with
    | .error _ => .bytes bytes
    | .ok json => .ofJson json

/-- A value sealed under a secret. -/
def secretEncrypt (source : RandomSource) (value : Value) (args : Arguments) :
    Except Fault Value := do
  let secret ← Parameter.secret.bytes args
  let payload ← payload value
  let rounds := Envelope.minRounds + source.below Envelope.roundsSpread
  let salt := (source.drop 8).take Envelope.saltLength
  let iv : Gcm.Nonce :=
    ⟨(source.drop (8 + Envelope.saltLength)).take Gcm.nonceLength, by simp [RandomSource.take]⟩
  return (Envelope.close secret rounds salt iv payload).toValue

/-- The value that an envelope seals under a secret. -/
def secretDecrypt (value : Value) (args : Arguments) : Except Fault Value := do
  let secret ← Parameter.secret.bytes args
  match value with
  | .map entries =>
    let envelope ← Envelope.ofEntries entries
    match envelope.open? secret with
    | some bytes => return ofPayload bytes
    | none => .error .authentication
  | other => .error (.wrongKind .envelope other.kind)

end Transform

end Pipework
