import Pipework.Crypto.Sha256

set_option autoImplicit false

/-! # Random draws

Salts, nonces and round counts are drawn from a `RandomSource`, an endless sequence of bytes that is
handed along: whoever takes bytes passes on what is left. Everything that runs is thereby a function
of its input and the source. -/

namespace Pipework

/-- An endless sequence of bytes. -/
structure RandomSource where
  byteAt : Nat → UInt8

namespace RandomSource

/-- The first `count` bytes. -/
def take (source : RandomSource) (count : Nat) : Bytes := (List.range count).map source.byteAt

/-- What follows the first `count` bytes. -/
def drop (source : RandomSource) (count : Nat) : RandomSource :=
  ⟨fun i => source.byteAt (count + i)⟩

/-- A number below `bound`, drawn from the first eight bytes. -/
def below (source : RandomSource) (bound : Nat) : Nat :=
  (source.take 8).foldl (fun n byte => n * 256 + byte.toNat) 0 % bound

/-- The sequence that a seed determines: the first bytes of the digests of the seed with a number
    behind it. -/
def ofSeed (seed : Bytes) : RandomSource where
  byteAt i :=
    let number := (List.range 8).map fun k => UInt8.ofNat (i >>> (8 * k))
    (Sha256.digest (seed ++ number)).headD 0

end RandomSource

end Pipework
