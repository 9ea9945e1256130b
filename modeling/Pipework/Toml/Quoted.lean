import Pipework.Text.CodePoint
import Pipework.Toml.Blank

set_option autoImplicit false

/-! # Quoted strings

A string ends with the quotes that it starts with. Basic strings, in double quotes, have escapes;
literal strings, in single quotes, have none. A string in three quotes may go over several lines: a
line break right behind the opening quotes is left out, other line breaks count as line feeds. -/

namespace Pipework.Toml

/-- The kinds of strings. -/
structure Quoting where
  /-- In double quotes, with escapes. -/
  isBasic : Bool
  /-- In three quotes, over several lines. -/
  isMultiline : Bool
deriving DecidableEq, Repr

namespace Quoting

/-- The quote. -/
def mark (quoting : Quoting) : Char := if quoting.isBasic then '"' else '\''

/-! ## Escapes -/

/-- The character that a letter behind a backslash stands for. -/
def shortEscape? (c : Char) : Option Char :=
  match c with
  | 'b' => some '\x08'
  | 't' => some '\t'
  | 'n' => some '\n'
  | 'f' => some '\x0c'
  | 'r' => some '\r'
  | '"' | '\\' => some c
  | _ => none

/-- The character that an escape stands for, and what follows it; the text starts behind the
    backslash. -/
def escape? : List Char → Option (Char × List Char)
  | [] => none
  | 'u' :: rest => CodePoint.read? 4 rest
  | 'U' :: rest => CodePoint.read? 8 rest
  | c :: rest => (shortEscape? c).map fun escaped => (escaped, rest)

theorem length_of_escape? {chars rest : List Char} {c : Char}
    (h : escape? chars = some (c, rest)) : rest.length < chars.length := by
  unfold escape? at h
  split at h
  · cases h
  · have := CodePoint.length_of_read? h
    simp only [List.length_cons]
    omega
  · have := CodePoint.length_of_read? h
    simp only [List.length_cons]
    omega
  · obtain ⟨_, _, eq⟩ := Option.map_eq_some_iff.1 h
    cases eq
    simp

/-! ## Ends -/

/-- The quotes at the end of a string that still belong to it, and what follows the string, if it
    ends where the text starts. Three quotes end a string of several lines, but up to two more may
    come before them. -/
def ending? (quoting : Quoting) (chars : List Char) : Option (List Char × List Char) :=
  let quotes := (chars.takeWhile (· == quoting.mark)).length
  if quoting.isMultiline then
    if quotes < 3 then none
    else
      let own := min (quotes - 3) 2
      some (List.replicate own quoting.mark, chars.drop (own + 3))
  else if quotes = 0 then none
  else some ([], chars.drop 1)

/-! ## Strings -/

/-- The rest of the string that a text starts in, and what follows it. -/
def body (quoting : Quoting) (chars : List Char) : Option (List Char × List Char) :=
  match quoting.ending? chars with
  | some ending => some ending
  | none =>
    match chars with
    | [] => none
    | c :: rest =>
      if quoting.isBasic && c == '\\' then
        match _ : if quoting.isMultiline then skipBreak? (skipBlanks rest) else none with
        | some after => quoting.body (skipLines after)
        | none =>
          match _ : escape? rest with
          | some (escaped, after) =>
            (quoting.body after).map fun (text, more) => (escaped :: text, more)
          | none => none
      else if isText c then (quoting.body rest).map fun (text, more) => (c :: text, more)
      else if quoting.isMultiline then
        match _ : skipBreak? (c :: rest) with
        | some after => (quoting.body after).map fun (text, more) => ('\n' :: text, more)
        | none => none
      else none
termination_by chars.length
decreasing_by
  · rename_i h
    split at h
    · have := length_of_skipBreak? h
      have := length_skipLines_le after
      have := (List.dropWhile_suffix (l := rest) isBlank).length_le
      simp only [skipBlanks, List.length_cons] at *
      omega
    · cases h
  · have := length_of_escape? ‹_›
    simp only [List.length_cons]
    omega
  · simp
  · exact length_of_skipBreak? ‹_›

/-- The quoting that a text starts with on a single line, and what follows its opening quote. -/
def single? : List Char → Option (Quoting × List Char)
  | '"' :: rest => some (⟨true, false⟩, rest)
  | '\'' :: rest => some (⟨false, false⟩, rest)
  | _ => none

/-- The quoting that a text starts with, and what follows its opening quotes. -/
def opening? : List Char → Option (Quoting × List Char)
  | '"' :: '"' :: '"' :: rest => some (⟨true, true⟩, (skipBreak? rest).getD rest)
  | '\'' :: '\'' :: '\'' :: rest => some (⟨false, true⟩, (skipBreak? rest).getD rest)
  | chars => single? chars

/-- The string behind opening quotes, and what follows it. -/
def read? (quoting : Quoting) (chars : List Char) : Option (String × List Char) :=
  (quoting.body chars).map fun (text, rest) => (String.ofList text, rest)

end Quoting

end Pipework.Toml
