set_option autoImplicit false

/-! # Splitting and reading text -/

namespace Pipework.Text

/-- The pieces of `chars` between occurrences of `separator`; there is always one more than there
    are occurrences. -/
def splitOn (separator : Char) : List Char → List (List Char)
  | [] => [[]]
  | c :: rest =>
    if c = separator then [] :: splitOn separator rest
    else
      match splitOn separator rest with
      | [] => [[c]]
      | piece :: pieces => (c :: piece) :: pieces

/-- The number that decimal digits spell, `value` being that of the digits before. -/
def digitsValue? (value : Nat) : List Char → Option Nat
  | [] => some value
  | c :: rest =>
    if '0' ≤ c ∧ c ≤ '9' then digitsValue? (10 * value + (c.toNat - '0'.toNat)) rest else none

/-- The number of 32 bits that `chars` spell: one digit or more, perhaps behind a plus sign. -/
def nat32? (chars : List Char) : Option Nat :=
  let digits :=
    match chars with
    | '+' :: digits => digits
    | digits => digits
  match digits with
  | [] => none
  | digits =>
    match digitsValue? 0 digits with
    | some n => if n < 0x100000000 then some n else none
    | none => none

end Pipework.Text
