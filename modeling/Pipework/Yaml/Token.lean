import Pipework.Yaml.BlockScalar
import Pipework.Yaml.Cursor
import Pipework.Yaml.PlainScalar
import Pipework.Yaml.Property
import Pipework.Yaml.QuotedScalar

set_option autoImplicit false

/-! # Tokens

`Token.ofText?` cuts a text into tokens. Indentation becomes tokens of its own: a block collection
is opened where a line is indented further than the one around it and closed where a line is
indented less. That a scalar is the key of a mapping shows only at the colon behind it, so the
places where a key may have started are remembered (`KeyStart`), and the tokens that should have
come before it are put in afterwards. -/

namespace Pipework.Yaml

/-! ## Types -/

/-- A token. -/
inductive Token
  | directive (directive : Directive)
  | documentStart
  | documentEnd
  | blockSequenceStart
  | blockMappingStart
  | blockEnd
  | flowSequenceStart
  | flowSequenceEnd
  | flowMappingStart
  | flowMappingEnd
  | blockEntry
  | flowEntry
  | key
  | value
  | alias (name : String)
  | anchor (name : String)
  | tag (tag : RawTag)
  | scalar (text : String) (isPlain : Bool)
deriving DecidableEq, Repr

/-- A place where the key of a mapping may have started. -/
structure KeyStart where
  /-- Nothing but a key may stand there. -/
  isRequired : Bool
  /-- How many tokens come before. -/
  tokenCount : Nat
  place : Place

/-- A text that is partly cut into tokens. -/
structure Scan where
  cursor : Cursor
  tokens : Array Token
  /-- How far the innermost block collection is indented, and those around it. -/
  indents : List Nat
  /-- Where a key may have started, within the innermost brackets or braces. -/
  keyStart : Option KeyStart
  /-- The same for each of the brackets and braces around. -/
  outerStarts : List (Option KeyStart)
  /-- A key may start here. -/
  keyAllowed : Bool

namespace Scan

/-- Nothing is cut yet. -/
def start (text : List Char) : Scan :=
  { cursor := .start text, tokens := #[], indents := [], keyStart := none, outerStarts := []
    keyAllowed := true }

/-- The scan is within brackets or braces. -/
def inFlow (scan : Scan) : Bool := !scan.outerStarts.isEmpty

/-- How far the innermost block collection is indented, if there is one. -/
def indent? (scan : Scan) : Option Nat := scan.indents.head?

/-- The scan with one more token. -/
def push (scan : Scan) (token : Token) : Scan := { scan with tokens := scan.tokens.push token }

/-- The scan behind the next `count` characters. -/
def skip (scan : Scan) (count : Nat) : Scan := { scan with cursor := scan.cursor.skip count }

/-- The scan with one more token, before `rest`. -/
def pushMoving (scan : Scan) (token : Token) (rest : List Char) : Scan :=
  { scan.push token with cursor := scan.cursor.moveTo rest }

/-! ## Indentation -/

/-- Opens a block collection with `token`, put in behind `tokenCount` others, if the column is
    further in than the innermost collection. -/
def openBlock (scan : Scan) (column tokenCount : Nat) (token : Token) : Scan :=
  if scan.inFlow || scan.indent?.any (column ≤ ·) then scan
  else
    { scan with
      tokens := scan.tokens.insertIdxIfInBounds tokenCount token
      indents := column :: scan.indents }

/-- How many of the collections that are indented by `indents` end at a column. -/
def closedBy (column : Nat) (indents : List Nat) : Nat := (indents.takeWhile (column < ·)).length

/-- Closes `count` block collections. -/
def closeBlocks (scan : Scan) (count : Nat) : Scan :=
  { scan with
    tokens := scan.tokens ++ (List.replicate count Token.blockEnd).toArray
    indents := scan.indents.drop count }

/-- Closes the block collections that a column ends. -/
def closeTo (scan : Scan) (column : Nat) : Scan :=
  if scan.inFlow then scan else scan.closeBlocks (closedBy column scan.indents)

/-- Closes all block collections. -/
def closeAll (scan : Scan) : Scan :=
  if scan.inFlow then scan else scan.closeBlocks scan.indents.length

/-! ## Keys -/

/-- Gives up the place where a key may have started; one that has to be a key is refused. -/
def dropKey (scan : Scan) : Option Scan :=
  if scan.keyStart.any (·.isRequired) then none else some { scan with keyStart := none }

/-- Remembers that a key may start here. -/
def saveKey (scan : Scan) : Option Scan :=
  if scan.keyAllowed then do
    let place := scan.cursor.place
    let isRequired := !scan.inFlow && scan.indent? == some place.column
    let scan ← scan.dropKey
    return { scan with keyStart := some ⟨isRequired, scan.tokens.size, place⟩ }
  else some scan

/-- A key that started there cannot go on here: it takes one line and 1024 characters at most. -/
def isStale (here : Place) (start : KeyStart) : Bool :=
  start.place.line < here.line || start.place.index + 1024 < here.index

/-- Gives up the places where a key may have started, but can no longer go on. -/
def dropStaleKeys (scan : Scan) : Option Scan :=
  let stale := isStale scan.cursor.place
  let isLost (start : Option KeyStart) : Bool := start.any fun s => s.isRequired && stale s
  if (scan.keyStart :: scan.outerStarts).any isLost then
    none
  else
    let keep (start : Option KeyStart) := start.filter fun s => !stale s
    some { scan with keyStart := keep scan.keyStart, outerStarts := scan.outerStarts.map keep }

/-- Enters brackets or braces. -/
def enterFlow (scan : Scan) : Scan :=
  { scan with keyStart := none, outerStarts := scan.keyStart :: scan.outerStarts }

/-- Leaves brackets or braces. -/
def leaveFlow (scan : Scan) : Scan :=
  match scan.outerStarts with
  | [] => scan
  | start :: outer => { scan with keyStart := start, outerStarts := outer }

/-- The scan with `keyAllowed` changed. -/
def allowKey (scan : Scan) (keyAllowed : Bool) : Scan := { scan with keyAllowed }

/-! ## Between tokens -/

/-- What follows the blanks, comments and line breaks that a text starts with, and whether a key may
    start there. Tabs do not count as blanks where they might be taken for indentation. -/
def skipBlanks (inFlow : Bool) (keyAllowed inComment : Bool) : List Char → List Char × Bool
  | [] => ([], keyAllowed)
  | c :: rest =>
    if isBreak c then skipBlanks inFlow (keyAllowed || !inFlow) false rest
    else if inComment || c == ' ' || (c == '\t' && (inFlow || !keyAllowed)) then
      skipBlanks inFlow keyAllowed inComment rest
    else if c == '#' then skipBlanks inFlow keyAllowed true rest
    else (c :: rest, keyAllowed)

/-- The scan at the start of the next token. -/
def toToken (scan : Scan) : Scan :=
  let chars := scan.cursor.rest
  let isMarked := scan.cursor.place.index == 0 && chars.head? == some '\ufeff'
  let chars := if isMarked then chars.tail else chars
  let (rest, keyAllowed) := skipBlanks scan.inFlow scan.keyAllowed false chars
  { scan with cursor := scan.cursor.moveTo rest, keyAllowed }

/-! ## One token -/

/-- A directive. -/
def directive (scan : Scan) : Option Scan := do
  let scan ← scan.closeAll.dropKey
  let (directive, rest) ← Property.directive (scan.cursor.rest.drop 1)
  return (scan.allowKey false).pushMoving (.directive directive) rest

/-- A mark between documents. -/
def documentMark (scan : Scan) (token : Token) : Option Scan := do
  let scan ← scan.closeAll.dropKey
  return ((scan.allowKey false).push token).skip 3

/-- An opening bracket or brace. -/
def flowStart (scan : Scan) (token : Token) : Option Scan := do
  let scan ← scan.saveKey
  return ((scan.enterFlow.allowKey true).push token).skip 1

/-- A closing bracket or brace. -/
def flowEnd (scan : Scan) (token : Token) : Option Scan := do
  let scan ← scan.dropKey
  return ((scan.leaveFlow.allowKey false).push token).skip 1

/-- A comma within brackets or braces. -/
def flowEntry (scan : Scan) : Option Scan := do
  let scan ← scan.dropKey
  return ((scan.allowKey true).push .flowEntry).skip 1

/-- Opens a block collection at this column, which may happen only where a key may start. -/
def openHere (scan : Scan) (token : Token) : Option Scan :=
  if scan.inFlow then some scan
  else if scan.keyAllowed then
    some (scan.openBlock scan.cursor.place.column scan.tokens.size token)
  else none

/-- The hyphen before an item. -/
def blockEntry (scan : Scan) : Option Scan := do
  let scan ← scan.openHere .blockSequenceStart
  let scan ← scan.dropKey
  return ((scan.allowKey true).push .blockEntry).skip 1

/-- The question mark before a key. -/
def explicitKey (scan : Scan) : Option Scan := do
  let scan ← scan.openHere .blockMappingStart
  let scan ← scan.dropKey
  return ((scan.allowKey (!scan.inFlow)).push .key).skip 1

/-- The colon before a value. -/
def mappingValue (scan : Scan) : Option Scan := do
  let scan ←
    match scan.keyStart with
    | some start =>
      let scan :=
        { scan with
          tokens := scan.tokens.insertIdxIfInBounds start.tokenCount .key
          keyStart := none }
      pure ((scan.openBlock start.place.column start.tokenCount .blockMappingStart).allowKey false)
    | none => do
      let scan ← scan.openHere .blockMappingStart
      pure (scan.allowKey (!scan.inFlow))
  return (scan.push .value).skip 1

/-- A name behind an ampersand or an asterisk. -/
def anchor (scan : Scan) (token : String → Token) : Option Scan := do
  let scan ← scan.saveKey
  let (name, rest) ← Property.anchor (scan.cursor.rest.drop 1)
  return (scan.allowKey false).pushMoving (token name) rest

/-- A tag. -/
def tag (scan : Scan) : Option Scan := do
  let scan ← scan.saveKey
  let (tag, rest) ← Property.tag scan.inFlow (scan.cursor.rest.drop 1)
  return (scan.allowKey false).pushMoving (.tag tag) rest

/-- A block scalar. -/
def blockScalar (scan : Scan) (literal : Bool) : Option Scan := do
  let scan ← scan.dropKey
  let (text, rest) ← BlockScalar.scan literal scan.indent? (scan.cursor.rest.drop 1)
  return (scan.allowKey true).pushMoving (.scalar (String.ofList text) false) rest

/-- A quoted scalar. -/
def quotedScalar (scan : Scan) (quote : Quote) : Option Scan := do
  let scan ← scan.saveKey
  let (text, rest) ← QuotedScalar.scan quote (scan.cursor.rest.drop 1)
  return (scan.allowKey false).pushMoving (.scalar (String.ofList text) false) rest

/-- A plain scalar. -/
def plainScalar (scan : Scan) : Option Scan := do
  let scan ← scan.saveKey
  let indent := (scan.indent?.map (· + 1)).getD 0
  let scalar ← PlainScalar.scan ⟨scan.inFlow, indent⟩ scan.cursor.rest
  let token := Token.scalar (String.ofList scalar.text) true
  return (scan.allowKey scalar.isBroken).pushMoving token scalar.rest

/-- A plain scalar may start with `c`, which `next` follows. -/
def startsPlain (inFlow : Bool) (c : Char) (next : Option Char) : Bool :=
  !(isIndicator c || isSpacing c) || (c == '-' && !next.any isSpacing) ||
    (!inFlow && (c == '?' || c == ':') && !endsWord next)

/-- The scan behind the token that starts with `c`. -/
def nextToken (scan : Scan) (c : Char) : Option Scan :=
  let chars := scan.cursor.rest
  let next := chars.tail.head?
  let atMargin := scan.cursor.place.column == 0
  let standsAlone := scan.inFlow || endsWord next
  if atMargin && c == '%' then scan.directive
  else if atMargin && startsDocument chars then scan.documentMark .documentStart
  else if atMargin && endsDocument chars then scan.documentMark .documentEnd
  else if c == '[' then scan.flowStart .flowSequenceStart
  else if c == '\x7b' then scan.flowStart .flowMappingStart
  else if c == ']' then scan.flowEnd .flowSequenceEnd
  else if c == '\x7d' then scan.flowEnd .flowMappingEnd
  else if c == ',' then scan.flowEntry
  else if c == '-' && endsWord next then scan.blockEntry
  else if c == '?' && standsAlone then scan.explicitKey
  else if c == ':' && standsAlone then scan.mappingValue
  else if c == '*' then scan.anchor .alias
  else if c == '&' then scan.anchor .anchor
  else if c == '!' then scan.tag
  else if c == '|' && !scan.inFlow then scan.blockScalar true
  else if c == '>' && !scan.inFlow then scan.blockScalar false
  else if c == '\'' then scan.quotedScalar .single
  else if c == '"' then scan.quotedScalar .double
  else if startsPlain scan.inFlow c next then scan.plainScalar
  else none

/-- All tokens of a text, at most `count` more of them. -/
def finish (scan : Scan) : Nat → Option (List Token)
  | 0 => none
  | count + 1 => do
    let scan ← scan.toToken.dropStaleKeys
    let scan := scan.closeTo scan.cursor.place.column
    match scan.cursor.next? with
    | some c => (← scan.nextToken c).finish count
    | none => return (← scan.closeAll.dropKey).tokens.toList

end Scan

/-- The tokens of a text, if it can be cut into tokens. -/
def Token.ofText? (text : String) : Option (List Token) :=
  let chars := text.toList
  if (chars.drop 1).all isAllowed && chars.head?.all (fun c => isAllowed c || c == '\ufeff') then
    (Scan.start chars).finish (chars.length + 1)
  else none

end Pipework.Yaml
