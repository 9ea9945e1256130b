set_option autoImplicit false

/-! # Bytes and UTF-8

`Bytes` is the carrier of everything binary in the library. A text is turned into bytes by
`Utf8.encode`, and `Utf8.decode` reads bytes back: it walks over one character at a time and stops
at the first byte that starts none, so a refusal reports the length of the longest well-formed
start. -/

namespace Pipework

/-- A byte string. -/
abbrev Bytes := List UInt8

namespace Utf8

/-! ## Encoding -/

/-- The UTF-8 encoding of `text`. -/
def encode (text : String) : Bytes := text.toUTF8.data.toList

/-- How many bytes `chars` take. -/
def byteLength (chars : List Char) : Nat := chars.foldl (fun n c => n + c.utf8Size) 0

/-! ## Decoding -/

/-- The character that `bytes` starts with. No character takes more than four bytes. -/
def firstChar? (bytes : Bytes) : Option Char := (bytes.take 4).toByteArray.utf8DecodeChar? 0

theorem length_pos_of_firstChar? {bytes : Bytes} {c : Char} (h : firstChar? bytes = some c) :
    0 < bytes.length := by
  cases bytes with
  | nil =>
    have empty : firstChar? [] = none := by decide
    rw [empty] at h
    cases h
  | cons => simp

/-- The characters at the start of `bytes`, and the bytes from the first one on that starts no
    character. -/
def scan (bytes : Bytes) : List Char × Bytes :=
  match _ : firstChar? bytes with
  | none => ([], bytes)
  | some c =>
    let (chars, rest) := scan (bytes.drop c.utf8Size)
    (c :: chars, rest)
termination_by bytes.length
decreasing_by
  have := length_pos_of_firstChar? ‹_›
  have := c.utf8Size_pos
  simp only [List.length_drop]
  omega

/-- The text that `bytes` spell, or the length of their longest well-formed start. -/
def decode (bytes : Bytes) : Except Nat String :=
  match scan bytes with
  | (chars, []) => .ok (String.ofList chars)
  | (_, rest) => .error (bytes.length - rest.length)

end Utf8

end Pipework
