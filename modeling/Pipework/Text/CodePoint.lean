import Pipework.Text.Radix

set_option autoImplicit false

/-! # Escaped code points

Formats of text let a character be named by a fixed count of hexadecimal digits, which spell its
code point. `CodePoint.read?` reads such digits; a number that is no code point of a character is
refused. -/

namespace Pipework.CodePoint

/-- The character with a code point that is one. -/
def char? (code : Nat) : Option Char := if code.isValidChar then some (Char.ofNat code) else none

/-- The character whose code point the first `count` characters spell, and what follows them. -/
def read? (count : Nat) (chars : List Char) : Option (Char × List Char) :=
  if chars.length < count then none
  else do return (← char? (← Radix.number? 16 (chars.take count)), chars.drop count)

theorem length_of_read? {count : Nat} {chars rest : List Char} {c : Char}
    (h : read? count chars = some (c, rest)) : rest.length + count = chars.length := by
  unfold read? at h
  split at h
  · cases h
  · simp only [bind, Option.bind_eq_some_iff, pure, Option.some.injEq, Prod.mk.injEq] at h
    obtain ⟨_, _, _, _, _, rfl⟩ := h
    simp only [List.length_drop]
    omega

end Pipework.CodePoint
