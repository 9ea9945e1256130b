import Pipework.Text.Radix
import Pipework.Text.Utf8
import Pipework.Yaml.Character

set_option autoImplicit false

/-! # Anchors, tags and directives

What may stand before a node, to name it or to give it a tag, and the lines before a document that
say how to read it. A tag is a handle and a suffix; what a handle means is up to the document. -/

namespace Pipework.Yaml

/-- A tag as it is written. -/
structure RawTag where
  /-- Empty if the suffix is the whole tag. -/
  handle : String
  suffix : String
deriving DecidableEq, Repr

/-- A line that says how to read a document. -/
inductive Directive
  | version (major minor : Nat)
  /-- What a handle of tags stands for. -/
  | tag (handle start : String)
deriving DecidableEq, Repr

namespace Property

/-! ## Anchors -/

/-- A character that may follow the name of an anchor, besides blanks. -/
def endsAnchor (c : Char) : Bool := ['?', ':', ',', ']', '\x7d', '%', '@', '\x60'].contains c

/-- The name of the anchor whose sign comes before a text, and what follows it. -/
def anchor (chars : List Char) : Option (String × List Char) :=
  let name := chars.takeWhile isWordChar
  let rest := chars.dropWhile isWordChar
  if !name.isEmpty && (endsWord rest.head? || rest.head?.any endsAnchor) then
    some (String.ofList name, rest)
  else none

/-! ## Tags -/

/-- A character of a tag; a verbatim tag may hold commas and brackets as well. -/
def isTagChar (verbatim : Bool) (c : Char) : Bool :=
  isWordChar c ||
    ";/?:@&=+$.%!~*'()".toList.contains c ||
    (verbatim && [',', '[', ']'].contains c)

/-- The bytes of a tag, with escaped ones in place of a percent sign and two digits. -/
def tagBytes : List Char → Option Bytes
  | [] => some []
  | '%' :: high :: low :: rest => do
    let byte ← Radix.number? 16 [high, low]
    let bytes ← tagBytes rest
    return UInt8.ofNat byte :: bytes
  | c :: rest => do
    if c == '%' then none
    let bytes ← tagBytes rest
    return Utf8.encode c.toString ++ bytes

/-- The part of a tag that a text starts with, and what follows it. -/
def tagPart (verbatim : Bool) (chars : List Char) : Option (String × List Char) := do
  let bytes ← tagBytes (chars.takeWhile (isTagChar verbatim))
  let text ← (Utf8.decode bytes).toOption
  return (text, chars.dropWhile (isTagChar verbatim))

/-- The handle of a tag whose first exclamation mark comes before a text, if there is one, and what
    follows it. -/
def namedHandle? (chars : List Char) : Option (String × List Char) :=
  match chars.dropWhile isWordChar with
  | '!' :: rest => some (String.ofList ('!' :: chars.takeWhile isWordChar ++ ['!']), rest)
  | _ => none

/-- The tag whose first exclamation mark comes before a text, and what follows it. -/
def tagStart : List Char → Option (RawTag × List Char)
  | '<' :: rest => do
    let (suffix, rest) ← tagPart true rest
    match suffix.isEmpty, rest with
    | false, '>' :: rest => return (⟨"", suffix⟩, rest)
    | _, _ => none
  | chars =>
    match namedHandle? chars with
    | some (handle, rest) => do
      let (suffix, rest) ← tagPart false rest
      if suffix.isEmpty then none else return (⟨handle, suffix⟩, rest)
    | none => do
      let (suffix, rest) ← tagPart false chars
      if suffix.isEmpty then return (⟨"", "!"⟩, rest) else return (⟨"!", suffix⟩, rest)

/-- The tag whose first exclamation mark comes before a text, and what follows it. A blank has to
    follow or, within brackets or braces, a comma. -/
def tag (inFlow : Bool) (chars : List Char) : Option (RawTag × List Char) := do
  let (tag, rest) ← tagStart chars
  if endsWord rest.head? || (inFlow && rest.head? == some ',') then return (tag, rest) else none

/-! ## Directives -/

/-- A number of at most nine digits that a text starts with, and what follows it. -/
def number (chars : List Char) : Option (Nat × List Char) :=
  let digits := chars.takeWhile Char.isDigit
  if digits.isEmpty || 9 < digits.length then none
  else
    some (digits.foldl (fun n c => 10 * n + (c.toNat - '0'.toNat)) 0, chars.dropWhile Char.isDigit)

/-- The version that a text starts with. -/
def version (chars : List Char) : Option (Directive × List Char) := do
  let (major, rest) ← number chars
  match rest with
  | '.' :: rest =>
    let (minor, rest) ← number rest
    return (.version major minor, rest)
  | _ => none

/-- What a handle of tags stands for, at the start of a text. -/
def handleMeaning (chars : List Char) : Option (Directive × List Char) :=
  match chars with
  | '!' :: rest => do
    let (handle, rest) := (namedHandle? rest).getD ("!", rest)
    if !rest.head?.any isSpacing then none
    let (start, rest) ← tagPart true (rest.dropWhile isSpacing)
    if start.isEmpty || !endsWord rest.head? then none
    return (.tag handle start, rest)
  | _ => none

/-- What is left of a line with a directive; there may be a comment and nothing else. -/
def lineEnd (chars : List Char) : Option (List Char) :=
  let rest := chars.dropWhile isSpacing
  let rest := if rest.head? == some '#' then rest.dropWhile fun c => !isBreak c else rest
  if endsLine rest.head? then some rest else none

/-- The directive whose percent sign comes before a text, and what follows it on its line. -/
def directive (chars : List Char) : Option (Directive × List Char) := do
  let name := String.ofList (chars.takeWhile isWordChar)
  let rest := chars.dropWhile isWordChar
  if !endsWord rest.head? then none
  let rest := rest.dropWhile isSpacing
  let (directive, rest) ←
    match name with
    | "YAML" => version rest
    | "TAG" => handleMeaning rest
    | _ => none
  return (directive, ← lineEnd rest)

end Property

end Pipework.Yaml
