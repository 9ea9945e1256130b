import Pipework.Crypto.Pbkdf2
import Pipework.Crypto.Sha256
import Pipework.Random
import Pipework.Transform.Parameter
import Pipework.Value.Render

set_option autoImplicit false

/-! # Digests and derived keys

Digests by name of the algorithm, and keys derived from passwords. A derived key depends on a salt,
which is drawn unless one is bound; `keyRecord` keeps it beside the key. -/

namespace Pipework.Transform

/-! ## Digests -/

/-- The digest of bytes by the algorithm that is bound, SHA-256 if none is. Case and hyphens in its
    name do not matter, and the name is looked at after the input. -/
def hash (value : Value) (args : Arguments) : Except Fault Value := do
  let name := (← Parameter.algorithm.text? args).getD "sha256"
  let bytes ← value.expectBytes
  match String.ofList ((name.toList.map Char.toLower).filter (· != '-')) with
  | "sha256" => return .bytes (Sha256.digest bytes)
  | "sha384" => return .bytes (Sha512.digest384 bytes)
  | "sha512" => return .bytes (Sha512.digest bytes)
  | _ => .error (.argument .algorithm .unknownAlgorithm)

/-! ## Derived keys -/

/-- The length of a derived key if none is bound. -/
def defaultKeyLength : Nat := 32

/-- The greatest length of a derived key. -/
def maxKeyLength : Nat := 1024

/-- The number of iterations if none is bound. -/
def defaultIterations : Nat := 100000

/-- The length of a drawn salt. -/
def saltLength : Nat := 16

/-- What a key is derived from besides the password, all within bounds. -/
structure Derivation where
  password : Bytes
  length : Nat
  iterations : Nat
  salt : Bytes
  length_pos : 0 < length
  length_le : length ≤ maxKeyLength
  iterations_pos : 0 < iterations

/-- The derivation that an input and its arguments ask for. -/
def derivation (source : RandomSource) (value : Value) (args : Arguments) :
    Except Fault Derivation := do
  let password ← value.expectByteLike
  let length := (← Parameter.length.nat? args).getD defaultKeyLength
  let iterations := (← Parameter.iterations.nat32? args).getD defaultIterations
  if hl : 0 < length ∧ length ≤ maxKeyLength then
    if hi : 0 < iterations then
      let salt := (← Parameter.salt.bytes? args).getD (source.take saltLength)
      return ⟨password, length, iterations, salt, hl.1, hl.2, hi⟩
    else .error (.argument .iterations .noIterations)
  else .error (.argument .length (.badLength maxKeyLength))

/-- The derived key. -/
def Derivation.key (d : Derivation) : Bytes :=
  Pbkdf2.derive d.password d.salt d.iterations d.length

/-- The key derived from a password. -/
def deriveKey (source : RandomSource) (value : Value) (args : Arguments) : Except Fault Value := do
  let d ← derivation source value args
  return .bytes d.key

/-- The key derived from a password, with the salt and the number of iterations that it takes to
    derive it again. -/
def deriveKeyRecord (source : RandomSource) (value : Value) (args : Arguments) :
    Except Fault Value := do
  let d ← derivation source value args
  return .map (Dict.ofList
    [("key", .bytes d.key), ("salt", .bytes d.salt),
      ("iterations", .int (Int64.ofNat d.iterations))])

end Pipework.Transform
