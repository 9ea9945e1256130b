import Pipework.Yaml.Character

set_option autoImplicit false

/-! # Block scalars

A block scalar is a run of lines that are indented alike, behind a header. A literal one keeps its
line breaks; in a folded one a single line break between two lines that start with no space or tab
becomes a space. The header may fix the indentation and say what becomes of the line breaks at the
end. -/

namespace Pipework.Yaml

/-- What becomes of the line breaks at the end of a block scalar. -/
inductive Chomping
  /-- None is kept. -/
  | strip
  /-- The first is kept. -/
  | clip
  /-- All are kept. -/
  | keep
deriving DecidableEq, Repr

/-- The header of a block scalar. -/
structure BlockHeader where
  chomping : Chomping
  /-- How much further than its surroundings the scalar is indented. -/
  increment : Option Nat

namespace BlockScalar

/-! ## Header -/

/-- The chomping that a character asks for. -/
def chomping? (c : Char) : Option Chomping :=
  match c with
  | '+' => some .keep
  | '-' => some .strip
  | _ => none

/-- The increment that a digit asks for. -/
def increment? (c : Char) : Option Nat :=
  if '1' ≤ c ∧ c ≤ '9' then some (c.toNat - '0'.toNat) else none

/-- The header that a text starts with, and what follows its signs. -/
def header : List Char → BlockHeader × List Char
  | first :: second :: rest =>
    match chomping? first, increment? first, chomping? second, increment? second with
    | some chomping, _, _, some increment => (⟨chomping, some increment⟩, rest)
    | some chomping, _, _, none => (⟨chomping, none⟩, second :: rest)
    | none, some increment, some chomping, _ => (⟨chomping, some increment⟩, rest)
    | none, some increment, none, _ => (⟨.clip, some increment⟩, second :: rest)
    | none, none, _, _ => (⟨.clip, none⟩, first :: second :: rest)
  | [first] =>
    match chomping? first, increment? first with
    | some chomping, _ => (⟨chomping, none⟩, [])
    | none, some increment => (⟨.clip, some increment⟩, [])
    | none, none => (⟨.clip, none⟩, [first])
  | [] => (⟨.clip, none⟩, [])

/-! ## Lines -/

/-- The line break that a text starts with, as what it counts as, and what follows. -/
def takeBreak : List Char → List Char × List Char
  | '\r' :: '\n' :: rest => (['\n'], rest)
  | c :: rest =>
    match lineBreak? c with
    | some b => ([b], rest)
    | none => ([], c :: rest)
  | [] => ([], [])

/-- What follows the header on its line: spaces and perhaps a comment. -/
def headerEnd (chars : List Char) : Option (List Char) :=
  let rest := chars.dropWhile isSpacing
  let rest := if rest.head? == some '#' then rest.dropWhile fun c => !isBreak c else rest
  if endsLine rest.head? then some (takeBreak rest).2 else none

/-- A stretch of empty lines. -/
structure EmptyLines where
  breaks : List Char
  /-- How far the next line is indented, as far as that counts. -/
  column : Nat
  /-- The greatest column that was reached. -/
  deepest : Nat
  rest : List Char

/-- The empty lines that a text starts with, the current line being indented by `column` so far. If
    a limit is known, only that many spaces count as indentation. A tab instead is refused. -/
def emptyLines (limit : Option Nat) (column deepest : Nat) (breaks : List Char) :
    List Char → Option EmptyLines
  | [] => some ⟨breaks, column, max deepest column, []⟩
  | '\r' :: '\n' :: rest => emptyLines limit 0 (max deepest column) (breaks ++ ['\n']) rest
  | c :: rest =>
    let counts := limit.all (column < ·)
    if c == ' ' && counts then emptyLines limit (column + 1) deepest breaks rest
    else if c == '\t' && counts then none
    else
      match lineBreak? c with
      | some b => emptyLines limit 0 (max deepest column) (breaks ++ [b]) rest
      | none => some ⟨breaks, column, max deepest column, c :: rest⟩

/-! ## Content -/

/-- A block scalar as far as it is read. -/
structure Content where
  text : List Char
  /-- The line break behind the last line. -/
  lineBreak : List Char
  /-- The line breaks of the empty lines behind that. -/
  emptyBreaks : List Char
  /-- The last line started with a space or a tab. -/
  wasSpaced : Bool

namespace Content

/-- What stands between the lines so far and a further one. -/
def joint (literal : Bool) (content : Content) (isSpaced : Bool) : List Char :=
  if !literal && content.lineBreak == ['\n'] && !content.wasSpaced && !isSpaced then
    if content.emptyBreaks.isEmpty then [' '] else content.emptyBreaks
  else content.lineBreak ++ content.emptyBreaks

/-- The scalar when all lines are read. -/
def finish (chomping : Chomping) (content : Content) : List Char :=
  match chomping with
  | .strip => content.text
  | .clip => content.text ++ content.lineBreak
  | .keep => content.text ++ content.lineBreak ++ content.emptyBreaks

end Content

/-- The content with the lines of a text that are indented by `indent`, at most `count` of them, and
    what follows. -/
def lines (literal : Bool) (indent : Nat) (content : Content) :
    Nat → (column : Nat) → List Char → Option (Content × List Char)
  | 0, _, _ => none
  | count + 1, column, chars => do
    if column != indent || chars.isEmpty then return (content, chars)
    let isSpaced := chars.head?.any isSpacing
    let line := chars.takeWhile fun c => !isBreak c
    let (lineBreak, rest) := takeBreak (chars.dropWhile fun c => !isBreak c)
    let empty ← emptyLines (some indent) 0 0 [] rest
    let text := content.text ++ content.joint literal isSpaced ++ line
    lines literal indent ⟨text, lineBreak, empty.breaks, isSpaced⟩ count empty.column empty.rest

/-- The block scalar whose header a text starts with, and what follows it; `outer` is the
    indentation of what is around, if it is indented at all. -/
def scan (literal : Bool) (outer : Option Nat) (chars : List Char) :
    Option (List Char × List Char) := do
  let (header, rest) := header chars
  let rest ← headerEnd rest
  let limit := header.increment.map (outer.getD 0 + ·)
  let empty ← emptyLines limit 0 0 [] rest
  let least := (outer.map (· + 1)).getD 0
  let indent := limit.getD (max (max empty.deepest least) 1)
  let (content, rest) ←
    lines literal indent ⟨[], [], empty.breaks, false⟩ (rest.length + 1) empty.column empty.rest
  return (content.finish header.chomping, rest)

end BlockScalar

end Pipework.Yaml
