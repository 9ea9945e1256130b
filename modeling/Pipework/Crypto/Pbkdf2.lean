import Pipework.Crypto.Sha512

set_option autoImplicit false

/-! # Keys from passwords

PBKDF2 over HMAC-SHA-512. A password is turned once into the two states that every message
authentication code under it starts from (`Hmac.Key`); an iteration then costs two blocks, because
its message is a digest and fills one block with its padding. -/

namespace Pipework

/-! ## Message authentication codes -/

namespace Hmac

open Sha512 (State)

/-- The states after the inner and the outer key block. -/
structure Key where
  inner : State
  outer : State

/-- The key block: `secret`, or its digest if it is longer than a block, filled up with zeros. -/
def keyBlock (secret : Bytes) : Bytes :=
  let short := if secret.length ≤ 128 then secret else Sha512.digest secret
  short ++ List.replicate (128 - short.length) 0

/-- The key that `secret` gives. -/
def Key.ofSecret (secret : Bytes) : Key :=
  let block := keyBlock secret
  let start (mask : UInt8) := Sha512.absorb Sha512.initial (Sha512.words (block.map (· ^^^ mask)))
  { inner := start 0x36, outer := start 0x5C }

/-- `s`, reached after one block, after the 64 bytes of `digest` and their padding. -/
def afterDigest (s digest : State) : State :=
  Sha512.compress s digest.a digest.b digest.c digest.d digest.e digest.f digest.g digest.h
    0x8000000000000000 0 0 0 0 0 0 1536

/-- The code of `message`. -/
def Key.code (key : Key) (message : Bytes) : State :=
  afterDigest key.outer (Sha512.finish key.inner 128 message)

/-- The code of a message that is itself a digest. -/
def Key.codeOfDigest (key : Key) (digest : State) : State :=
  afterDigest key.outer (afterDigest key.inner digest)

end Hmac

/-! ## Derivation -/

namespace Pbkdf2

open Sha512 (State)

/-- Two states added bit by bit. -/
def mix (x y : State) : State :=
  ⟨x.a ^^^ y.a, x.b ^^^ y.b, x.c ^^^ y.c, x.d ^^^ y.d, x.e ^^^ y.e, x.f ^^^ y.f, x.g ^^^ y.g,
    x.h ^^^ y.h⟩

/-- `sum` with the next `count` codes mixed in, each the code of the one before; `last` is the one
    reached. -/
def stretch (key : Hmac.Key) (last sum : State) : (count : Nat) → State
  | 0 => sum
  | count + 1 =>
    let next := key.codeOfDigest last
    stretch key next (mix sum next) count

/-- The bytes of block `index`, counted from one. -/
def block (key : Hmac.Key) (salt : Bytes) (iterations index : Nat) : Bytes :=
  let number := [24, 16, 8, 0].map fun shift => UInt8.ofNat (index >>> shift)
  let first := key.code (salt ++ number)
  (stretch key first first (iterations - 1)).toBytes

/-- `length` bytes derived from `password` and `salt` in at least one iteration. -/
def derive (password salt : Bytes) (iterations length : Nat) : Bytes :=
  let key := Hmac.Key.ofSecret password
  ((List.range ((length + 63) / 64)).flatMap fun i => block key salt iterations (i + 1)).take length

theorem length_block (key : Hmac.Key) (salt : Bytes) (iterations index : Nat) :
    (block key salt iterations index).length = 64 := rfl

theorem length_derive (password salt : Bytes) (iterations length : Nat) :
    (derive password salt iterations length).length = length := by
  have blocks : ∀ (key : Hmac.Key) (indices : List Nat),
      (indices.flatMap fun i => block key salt iterations (i + 1)).length =
        64 * indices.length := by
    intro key indices
    induction indices with
    | nil => rfl
    | cons i rest ih =>
      simp only [List.flatMap_cons, List.length_append, length_block, ih, List.length_cons]
      omega
  simp only [derive, List.length_take, blocks, List.length_range]
  omega

end Pbkdf2

end Pipework
