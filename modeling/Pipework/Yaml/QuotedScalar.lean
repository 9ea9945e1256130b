import Pipework.Text.CodePoint
import Pipework.Yaml.Gap

set_option autoImplicit false

/-! # Quoted scalars

A quoted scalar consists of words with gaps between them, as a plain one does, and ends with the
quote that it starts with. In single quotes only the quote itself is special, and is written twice;
in double quotes a backslash starts an escape, and before a line break it keeps the break from
becoming a space. -/

namespace Pipework.Yaml

/-- The kind of quotes. -/
inductive Quote
  | single
  | double
deriving DecidableEq, Repr

/-- What ends a word of a quoted scalar. -/
inductive WordEnd
  /-- The closing quote. -/
  | quote
  /-- A gap. -/
  | gap
  /-- A gap whose first line break is escaped. -/
  | escapedBreak
deriving DecidableEq, Repr

namespace QuotedScalar

/-! ## Escapes -/

/-- The character that a letter behind a backslash stands for. -/
def shortEscape? (c : Char) : Option Char :=
  match c with
  | '0' => some '\x00'
  | 'a' => some '\x07'
  | 'b' => some '\x08'
  | 't' | '\t' => some '\t'
  | 'n' => some '\n'
  | 'v' => some '\x0b'
  | 'f' => some '\x0c'
  | 'r' => some '\r'
  | 'e' => some '\x1b'
  | ' ' | '"' | '/' | '\\' => some c
  | 'N' => some '\u0085'
  | '_' => some '\u00a0'
  | 'L' => some '\u2028'
  | 'P' => some '\u2029'
  | _ => none

/-- How many digits follow a letter behind a backslash. -/
def escapeDigits : Char → Nat
  | 'x' => 2
  | 'u' => 4
  | 'U' => 8
  | _ => 0

/-- The character that an escape stands for, and what follows it; the text starts behind the
    backslash. -/
def escape? : List Char → Option (Char × List Char)
  | [] => none
  | letter :: rest =>
    match escapeDigits letter with
    | 0 => do return (← shortEscape? letter, rest)
    | count => CodePoint.read? count rest

theorem length_of_escape? {chars rest : List Char} {c : Char}
    (h : escape? chars = some (c, rest)) : rest.length < chars.length := by
  cases chars with
  | nil => simp [escape?] at h
  | cons letter more =>
    simp only [escape?] at h
    split at h
    · simp only [bind, Option.bind_eq_some_iff, pure, Option.some.injEq, Prod.mk.injEq] at h
      obtain ⟨_, _, _, rfl⟩ := h
      simp
    · have := CodePoint.length_of_read? h
      simp only [List.length_cons]
      omega

/-! ## Words -/

/-- The word that a text in single quotes starts with, what ends it and what follows. -/
def singleWord : List Char → Option (List Char × WordEnd × List Char)
  | [] => none
  | '\'' :: '\'' :: rest => (singleWord rest).map fun (word, more) => ('\'' :: word, more)
  | c :: rest =>
    if c == '\'' then some ([], .quote, rest)
    else if isSpacing c || isBreak c then some ([], .gap, c :: rest)
    else (singleWord rest).map fun (word, more) => (c :: word, more)

/-- The word that a text in double quotes starts with, what ends it and what follows. -/
def doubleWord (chars : List Char) : Option (List Char × WordEnd × List Char) :=
  match chars with
  | [] => none
  | c :: rest =>
    if c == '"' then some ([], .quote, rest)
    else if isSpacing c || isBreak c then some ([], .gap, c :: rest)
    else if c == '\\' then
      match rest with
      | '\r' :: '\n' :: more => some ([], .escapedBreak, more)
      | next :: more =>
        if isBreak next then some ([], .escapedBreak, more)
        else
          match _ : escape? (next :: more) with
          | none => none
          | some (escaped, after) =>
            (doubleWord after).map fun (word, more) => (escaped :: word, more)
      | [] => none
    else (doubleWord rest).map fun (word, more) => (c :: word, more)
termination_by chars.length
decreasing_by
  · have := length_of_escape? ‹_›
    simp only [List.length_cons] at *
    omega
  · simp

/-- The word that a text in quotes starts with. -/
def word : Quote → List Char → Option (List Char × WordEnd × List Char)
  | .single => singleWord
  | .double => doubleWord

/-! ## Scalars -/

/-- The scalar that goes on with `chars` after `text`, at most `count` words long, and what follows
    its closing quote. Marks between documents are refused at the start of a line. -/
def words (quote : Quote) (text : List Char) : Nat → List Char → Option (List Char × List Char)
  | 0, _ => none
  | count + 1, chars => do
    let (word, ending, rest) ← word quote chars
    let text := text ++ word
    match ending with
    | .quote => return (text, rest)
    | .gap =>
      let (gap, rest) := Gap.empty.read rest
      if gap.isBroken && gap.column == 0 && atDocumentMark rest then none
      words quote (text ++ gap.text) count rest
    | .escapedBreak =>
      let (gap, rest) := (Gap.empty.addBreak '\n').read rest
      if gap.column == 0 && atDocumentMark rest then none
      words quote (text ++ gap.breaks.drop 1) count rest

/-- The scalar whose opening quote comes before a text, and what follows its closing quote. -/
def scan (quote : Quote) (chars : List Char) : Option (List Char × List Char) :=
  words quote [] (chars.length + 1) chars

end QuotedScalar

end Pipework.Yaml
