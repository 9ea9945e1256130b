set_option autoImplicit false

/-! # Characters of YAML

The classes of characters that decide where a token starts and ends. Where a class is asked about
the next character of a text, the end of the text is `none`. -/

namespace Pipework.Yaml

/-- A character that may stand in a YAML text at all. -/
def isAllowed (c : Char) : Bool :=
  let n := c.toNat
  n == 0x09 || n == 0x0A || n == 0x0D || (0x20 ≤ n && n ≤ 0x7E) || n == 0x85 ||
    (0xA0 ≤ n && n ≤ 0xFFFD && n != 0xFEFF) || 0x10000 ≤ n

/-- A space or a tab. -/
def isSpacing (c : Char) : Bool := c == ' ' || c == '\t'

/-- What a line break counts as: a line feed, unless it is a line or paragraph separator. -/
def lineBreak? (c : Char) : Option Char :=
  match c with
  | '\n' | '\r' | '\u0085' => some '\n'
  | '\u2028' | '\u2029' => some c
  | _ => none

/-- A line break. -/
def isBreak (c : Char) : Bool := (lineBreak? c).isSome

/-- A space, a tab, a line break or the end of the text. -/
def endsWord (next : Option Char) : Bool := next.all fun c => isSpacing c || isBreak c

/-- A line break or the end of the text. -/
def endsLine (next : Option Char) : Bool := next.all isBreak

/-- A letter, a digit, a hyphen or an underscore. -/
def isWordChar (c : Char) : Bool := c.isAlphanum || c == '-' || c == '_'

/-- A comma, a bracket or a brace. -/
def isFlowIndicator (c : Char) : Bool :=
  c == ',' || c == '[' || c == ']' || c == '\x7b' || c == '\x7d'

/-- A character that no plain scalar starts with. -/
def isIndicator (c : Char) : Bool :=
  isFlowIndicator c || "-?:#&*!|>'\"%@\x60".toList.contains c

/-- The text starts with the mark between documents (three hyphens). -/
def startsDocument : List Char → Bool
  | '-' :: '-' :: '-' :: rest => endsWord rest.head?
  | _ => false

/-- The text starts with the mark at the end of a document (three dots). -/
def endsDocument : List Char → Bool
  | '.' :: '.' :: '.' :: rest => endsWord rest.head?
  | _ => false

/-- The text starts with a mark of either kind; it counts as one only at the start of a line. -/
def atDocumentMark (chars : List Char) : Bool := startsDocument chars || endsDocument chars

end Pipework.Yaml
