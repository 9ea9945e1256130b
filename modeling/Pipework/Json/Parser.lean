import Pipework.Json.NumberReader
import Pipework.Text.Radix

set_option autoImplicit false

/-! # Reading JSON

`Json.parse` reads one document with blanks around it. Arrays and objects may nest 127 deep; of
members with one key the last stays. Every function reads from the front of the remaining characters
and returns what it leaves. -/

namespace Pipework.Json

/-- Blanks between tokens. -/
def isSpace (c : Char) : Bool := c = ' ' || c = '\n' || c = '\t' || c = '\r'

/-- `s` without the blanks at its start. -/
def skipSpace (s : List Char) : List Char := s.dropWhile isSpace

/-- The rest of `s` behind `word`. -/
def expectWord : (word : List Char) → List Char → Except Stop (List Char)
  | [], s => .ok s
  | _ :: _, [] => .error .early
  | w :: word, c :: rest => if w = c then expectWord word rest else .error (.atFirst (c :: rest))

/-! ## Strings -/

/-- The value of four hexadecimal digits. -/
def fourDigits? : List Char → Option Nat
  | a :: b :: c :: d :: _ => Radix.number? 16 [a, b, c, d]
  | _ => none

/-- The code unit that `s` begins with. Four bytes are taken before any of them is looked at. -/
def codeUnit (s : List Char) : Except Stop Nat :=
  match fourDigits? s with
  | some n => .ok n
  | none => if Utf8.byteLength s < 4 then .error .early else .error ⟨false, Utf8.byteLength s - 4⟩

/-- The first half of a pair of code units. -/
def isHighSurrogate (n : Nat) : Bool := 0xD800 ≤ n && n ≤ 0xDBFF

/-- The second half of a pair of code units. -/
def isLowSurrogate (n : Nat) : Bool := 0xDC00 ≤ n && n ≤ 0xDFFF

/-- The character of a numeric escape, whose digits `s` begins with, and how many characters of `s`
    it takes. A character outside the first plane takes two escapes. -/
def numericEscape (s : List Char) : Except Stop (Char × Nat) := do
  let high ← codeUnit s
  let rest := s.drop 4
  if isLowSurrogate high then .error (.here rest)
  else if !isHighSurrogate high then return (Char.ofNat high, 4)
  else
    match rest with
    | [] => .error .early
    | '\\' :: [] => .error .early
    | '\\' :: 'u' :: more =>
      let low ← codeUnit more
      if isLowSurrogate low then
        return (Char.ofNat ((high - 0xD800) * 0x400 + (low - 0xDC00) + 0x10000), 10)
      else .error (.here (more.drop 4))
    | '\\' :: more => .error (.atFirst more)
    | more => .error (.atFirst more)

/-- The character of the escape behind a backslash, and how many characters of `s` it takes. -/
def escape (s : List Char) : Except Stop (Char × Nat) :=
  match s with
  | [] => .error .early
  | '"' :: _ => .ok ('"', 1)
  | '\\' :: _ => .ok ('\\', 1)
  | '/' :: _ => .ok ('/', 1)
  | 'b' :: _ => .ok ('\x08', 1)
  | 'f' :: _ => .ok ('\x0c', 1)
  | 'n' :: _ => .ok ('\n', 1)
  | 'r' :: _ => .ok ('\r', 1)
  | 't' :: _ => .ok ('\t', 1)
  | 'u' :: rest => do
    let (c, used) ← numericEscape rest
    return (c, used + 1)
  | s => .error (.atFirst s)

/-- The characters up to the closing quote, and what follows it. -/
def stringBody (s : List Char) : Except Stop (List Char × List Char) :=
  match s with
  | [] => .error .early
  | c :: rest =>
    if c = '"' then .ok ([], rest)
    else if c = '\\' then
      match escape rest with
      | .error stop => .error stop
      | .ok (c, used) =>
        match stringBody (rest.drop used) with
        | .error stop => .error stop
        | .ok (cs, rest) => .ok (c :: cs, rest)
    else if c.toNat < 0x20 then .error (.here rest)
    else
      match stringBody rest with
      | .error stop => .error stop
      | .ok (cs, rest) => .ok (c :: cs, rest)
termination_by s.length
decreasing_by
  all_goals
    simp only [List.length_drop, List.length_cons]
    omega

/-! ## Arrays and objects -/

/-- The items from `s` on, which stands behind an item or, if `first`, behind the opening bracket.
    Every item takes a character, so the length of the text is enough for `fuel`. -/
def items (item : List Char → Except Stop (Json × List Char)) :
    (fuel : Nat) → (first : Bool) → List Char → Except Stop (List Json × List Char)
  | 0, _, _ => .error .early
  | fuel + 1, first, s => do
    let next (s : List Char) : Except Stop (List Json × List Char) := do
      let (json, s) ← item s
      let (rest, s) ← items item fuel false s
      return (json :: rest, s)
    match skipSpace s with
    | [] => .error .early
    | ']' :: rest => return ([], rest)
    | ',' :: rest =>
      if first then next (',' :: rest)
      else
        match skipSpace rest with
        | [] => .error .early
        | ']' :: rest => .error (.atFirst (']' :: rest))
        | s => next s
    | s => if first then next s else .error (.atFirst s)

/-- The members from `s` on, which stands behind a member or, if `first`, behind the opening brace.
    Every member takes a character, so the length of the text is enough for `fuel`. -/
def members (value : List Char → Except Stop (Json × List Char)) :
    (fuel : Nat) → (first : Bool) → List Char → Except Stop (List (String × Json) × List Char)
  | 0, _, _ => .error .early
  | fuel + 1, first, s => do
    let next (s : List Char) : Except Stop (List (String × Json) × List Char) := do
      let (key, s) ← stringBody s
      match skipSpace s with
      | [] => .error .early
      | ':' :: s =>
        let (json, s) ← value s
        let (rest, s) ← members value fuel false s
        return ((String.ofList key, json) :: rest, s)
      | s => .error (.atFirst s)
    match skipSpace s with
    | [] => .error .early
    | '\x7d' :: rest => return ([], rest)
    | '"' :: rest => if first then next rest else .error (.atFirst ('"' :: rest))
    | ',' :: rest =>
      if first then .error (.atFirst (',' :: rest))
      else
        match skipSpace rest with
        | [] => .error .early
        | '"' :: rest => next rest
        | s => .error (.atFirst s)
    | s => .error (.atFirst s)

/-! ## Documents -/

/-- How deep arrays and objects may nest. -/
def maxDepth : Nat := 127

/-- The document that `s` begins with, in which arrays and objects nest at most `depth` deep. -/
def value (depth : Nat) (s : List Char) : Except Stop (Json × List Char) :=
  match skipSpace s with
  | [] => .error .early
  | 'n' :: rest => return (.null, ← expectWord ['u', 'l', 'l'] rest)
  | 't' :: rest => return (.bool true, ← expectWord ['r', 'u', 'e'] rest)
  | 'f' :: rest => return (.bool false, ← expectWord ['a', 'l', 's', 'e'] rest)
  | '"' :: rest => do
    let (cs, rest) ← stringBody rest
    return (.text (String.ofList cs), rest)
  | '-' :: rest => do
    let (n, rest) ← magnitude true rest
    return (.number n, rest)
  | '[' :: rest =>
    match depth with
    | 0 => .error (.atFirst ('[' :: rest))
    | depth + 1 => do
      let (list, rest) ← items (value depth) (rest.length + 1) true rest
      return (.array list, rest)
  | '\x7b' :: rest =>
    match depth with
    | 0 => .error (.atFirst ('\x7b' :: rest))
    | depth + 1 => do
      let (list, rest) ← members (value depth) (rest.length + 1) true rest
      return (.object (Dict.ofList list), rest)
  | c :: rest =>
    if isDigit c then do
      let (n, rest) ← magnitude false (c :: rest)
      return (.number n, rest)
    else .error (.atFirst (c :: rest))

/-- The document that `text` spells. -/
def parse (text : String) : Except ParseError Json :=
  match value maxDepth text.toList with
  | .error stop => .error (.ofStop text stop)
  | .ok (json, rest) =>
    match skipSpace rest with
    | [] => .ok json
    | rest => .error (.ofStop text (.atFirst rest))

end Pipework.Json
