import Pipework.Decimal.Layout
import Pipework.Json.Basic

set_option autoImplicit false

/-! # Writing JSON

`Json.render` writes a document without blanks or, given a number of spaces, with one item to a
line. Quotes, backslashes and control characters are escaped and nothing else is. -/

namespace Pipework.Json

/-! ## Scalars -/

/-- A control character that has no escape of its own. -/
def controlEscape (c : Char) : List Char :=
  let digits := Nat.toDigits 16 c.toNat
  '\\' :: 'u' :: List.replicate (4 - digits.length) '0' ++ digits

/-- `c` as it stands inside a string. -/
def escaped (c : Char) : List Char :=
  if c = '"' then ['\\', '"']
  else if c = '\\' then ['\\', '\\']
  else if c = '\x08' then ['\\', 'b']
  else if c = '\t' then ['\\', 't']
  else if c = '\n' then ['\\', 'n']
  else if c = '\x0c' then ['\\', 'f']
  else if c = '\r' then ['\\', 'r']
  else if c.toNat < 0x20 then controlEscape c
  else [c]

/-- A string between its quotes. -/
def stringChars (s : String) : List Char := '"' :: s.toList.flatMap escaped ++ ['"']

/-- A number. -/
def numberChars : Number → List Char
  | .int n => Decimal.intChars n.toInt
  | .large n _ => Decimal.digitChars n.toNat
  | .float x _ => x.jsonText.toList

/-! ## Documents -/

/-- How items are set apart. -/
inductive Layout
  /-- Without any blanks. -/
  | compact
  /-- Each item on a line of its own, `indent` more spaces in for every level. -/
  | pretty (indent : Nat)
deriving DecidableEq, Repr

namespace Layout

/-- What stands before an item at `level`. -/
def lineBreak : Layout → (level : Nat) → List Char
  | compact, _ => []
  | pretty indent, level => '\n' :: List.replicate (indent * level) ' '

/-- What stands between a key and its value. -/
def colon : Layout → List Char
  | compact => [':']
  | pretty _ => [':', ' ']

end Layout

mutual

/-- A document that stands at `level`. -/
def chars (layout : Layout) (level : Nat) : Json → List Char
  | null => ['n', 'u', 'l', 'l']
  | bool true => ['t', 'r', 'u', 'e']
  | bool false => ['f', 'a', 'l', 's', 'e']
  | number n => numberChars n
  | text s => stringChars s
  | array [] => ['[', ']']
  | array (item :: rest) =>
    '[' :: layout.lineBreak (level + 1) ++ chars layout (level + 1) item ++
      moreItems layout (level + 1) rest ++ layout.lineBreak level ++ [']']
  | object .nil => ['\x7b', '\x7d']
  | object (.cons key _ value rest) =>
    '\x7b' :: layout.lineBreak (level + 1) ++ stringChars key ++ layout.colon ++
      chars layout (level + 1) value ++ moreMembers layout (level + 1) rest ++
      layout.lineBreak level ++ ['\x7d']

/-- The items after the first, each behind its comma. -/
def moreItems (layout : Layout) (level : Nat) : List Json → List Char
  | [] => []
  | item :: rest =>
    ',' :: layout.lineBreak level ++ chars layout level item ++ moreItems layout level rest

/-- The members after the first, each behind its comma. -/
def moreMembers (layout : Layout) (level : Nat) : {lo : Option String} → Entries Json lo → List Char
  | _, .nil => []
  | _, .cons key _ value rest =>
    ',' :: layout.lineBreak level ++ stringChars key ++ layout.colon ++
      chars layout level value ++ moreMembers layout level rest

end

/-- The text of a document. -/
def render (layout : Layout) (json : Json) : String := String.ofList (json.chars layout 0)

end Pipework.Json
