import Pipework.Yaml.Gap

set_option autoImplicit false

/-! # Plain scalars

A plain scalar is a text without quotes. It consists of words with gaps between them and ends before
a colon that a word cannot go on with, before a comment, before a line that is not indented enough
and, within brackets or braces, before the next indicator. -/

namespace Pipework.Yaml

/-- Where a plain scalar stands. -/
structure PlainContext where
  /-- Within brackets or braces. -/
  inFlow : Bool
  /-- How far a line has to be indented to go on with the scalar. -/
  indent : Nat

/-- A scalar and what follows it. -/
structure ScannedScalar where
  text : List Char
  rest : List Char
  /-- There is a line break between the scalar and what follows. -/
  isBroken : Bool

namespace PlainScalar

/-- The word that a text starts with, perhaps an empty one, and what follows it. Within brackets and
    braces a colon before another indicator is refused. -/
def word (inFlow : Bool) : List Char → Option (List Char × List Char)
  | [] => some ([], [])
  | c :: rest =>
    let next := rest.head?
    if isSpacing c || isBreak c then some ([], c :: rest)
    else if c == ':' && inFlow && next.any (fun n => n == '?' || isFlowIndicator n) then none
    else if (c == ':' && endsWord next) || (inFlow && isFlowIndicator c) then some ([], c :: rest)
    else (word inFlow rest).map fun (word, rest) => (c :: word, rest)

/-- The gap that a text starts with and what follows it; a tab where a line ought to be indented is
    refused. -/
def gap (context : PlainContext) (chars : List Char) : Option (Gap × List Char) :=
  let (gap, rest) := Gap.empty.read chars
  if gap.tabColumn.any (· < context.indent) then none else some (gap, rest)

/-- The scalar cannot go on behind a gap. -/
def endsAfter (context : PlainContext) (gap : Gap) (rest : List Char) : Bool :=
  (gap.isBroken &&
    ((!context.inFlow && gap.column < context.indent) ||
      (gap.column == 0 && atDocumentMark rest))) ||
    rest.head? == some '#'

/-- The scalar that goes on with `chars` after `text`, at most `count` words long. -/
def words (context : PlainContext) (text : List Char) : Nat → List Char → Option ScannedScalar
  | 0, _ => none
  | count + 1, chars => do
    let (gap, rest) ← gap context chars
    if endsAfter context gap rest then return ⟨text, rest, gap.isBroken⟩
    let (word, rest) ← word context.inFlow rest
    if word.isEmpty then return ⟨text, rest, gap.isBroken⟩
    words context (text ++ gap.text ++ word) count rest

/-- The plain scalar that a text starts with. -/
def scan (context : PlainContext) (chars : List Char) : Option ScannedScalar := do
  let (first, rest) ← word context.inFlow chars
  words context first (chars.length + 1) rest

end PlainScalar

end Pipework.Yaml
