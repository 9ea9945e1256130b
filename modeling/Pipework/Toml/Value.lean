import Pipework.Toml.DateTime
import Pipework.Toml.Number
import Pipework.Toml.Quoted
import Pipework.Toml.Table

set_option autoImplicit false

/-! # Keys and values

A key is a name or several names with points between them. A value is a word (a truth value, a
number, or a date or time), a string, an array or an inline table. Keys may have 79 names, and
values may nest 79 deep. -/

namespace Pipework.Toml

/-! ## Keys -/

namespace Key

/-- A character of a name without quotes. -/
def isBare (c : Char) : Bool := c.isAlphanum || c == '-' || c == '_'

/-- How many names a key may have. -/
def maxNames : Nat := 79

/-- The name that a text starts with, and what follows it. -/
def name? (chars : List Char) : Option (String × List Char) :=
  match Quoting.single? chars with
  | some (quoting, rest) => quoting.read? rest
  | none =>
    let name := chars.takeWhile isBare
    if name.isEmpty then none else some (String.ofList name, chars.dropWhile isBare)

/-- The key of at most `count` names that a text starts with, and what follows its blanks. -/
def names? : Nat → List Char → Option (Key × List Char)
  | 0, _ => none
  | count + 1, chars => do
    let (name, rest) ← name? (skipBlanks chars)
    match skipBlanks rest with
    | '.' :: rest => do
      let (key, rest) ← names? count rest
      return (⟨name :: key.path, key.name⟩, rest)
    | rest => return (⟨[], name⟩, rest)

/-- The key that a text starts with, and what follows the blanks behind it. -/
def read? (chars : List Char) : Option (Key × List Char) := names? maxNames chars

end Key

/-! ## Words -/

namespace Word

/-- A character of a word. -/
def isWordChar (c : Char) : Bool := c.isAlphanum || ['+', '-', '.', '_', ':'].contains c

/-- The name under which a date or a time stands in a mapping of its own. -/
def dateTimeName : String := "$__toml_private_datetime"

/-- What a date or a time is: a mapping with its form. -/
def dateTimeDocument (dateTime : DateTime) : Document :=
  .mapping [(.text dateTimeName, .text (String.ofList dateTime.chars))]

/-- What a word means. -/
def document? (word : List Char) : Option Document :=
  match word with
  | ['t', 'r', 'u', 'e'] => some (.bool true)
  | ['f', 'a', 'l', 's', 'e'] => some (.bool false)
  | word =>
    match Number.int? word with
    | some n => some (.int n)
    | none =>
      match Number.float? word with
      | some x => some (.float x)
      | none => (DateTime.read? word).map dateTimeDocument

/-- The word that a text starts with, and what follows it. A space may stand between a date and a
    time. -/
def split (chars : List Char) : List Char × List Char :=
  let word := chars.takeWhile isWordChar
  match Date.read? word, chars.dropWhile isWordChar with
  | some (_, []), ' ' :: c :: rest =>
    if c.isDigit then
      (word ++ ' ' :: (c :: rest).takeWhile isWordChar, (c :: rest).dropWhile isWordChar)
    else (word, ' ' :: c :: rest)
  | _, rest => (word, rest)

end Word

/-! ## Values -/

namespace ValueReader

/-- A reader of what a text starts with, which also returns what follows it. -/
abbrev Reader (α : Type) := List Char → Option (α × List Char)

/-- How deep arrays and inline tables may nest. -/
def maxDepth : Nat := 79

/-- The items of an array, at most `count`, and what follows its closing bracket. Items stand
    between commas, of which there may be one behind the last item, too. -/
def items (item : Reader Document) : Nat → Reader (List Document)
  | 0, _ => none
  | count + 1, chars =>
    match skipGap chars with
    | ']' :: rest => some ([], rest)
    | chars => do
      let (document, rest) ← item chars
      match skipGap rest with
      | ',' :: rest => do
        let (documents, rest) ← items item count rest
        return (document :: documents, rest)
      | ']' :: rest => return ([document], rest)
      | _ => none

/-- The key and the value on the two sides of an equals sign, and what follows them. -/
def pair (value : Reader Document) : Reader (Key × Document) := fun chars => do
  let (key, rest) ← Key.read? chars
  let (document, rest) ← value (skipBlanks (← skip? '=' rest))
  return ((key, document), rest)

/-- The entries of an inline table, at most `count`, added to `table`, and what follows the closing
    brace. There is a comma between two entries. -/
def entries (value : Reader Document) (table : Table) : Nat → Reader Table
  | 0, _ => none
  | count + 1, chars => do
    let ((key, document), rest) ← pair value chars
    let table ← table.put key.path key.name document
    match skipBlanks rest with
    | ',' :: rest => entries value table count rest
    | '\x7d' :: rest => return (table, rest)
    | _ => none

/-- The value that a text starts with, with collections nesting at most `depth` deep. -/
def read? (depth : Nat) : Reader Document := fun chars =>
  match Quoting.opening? chars with
  | some (quoting, rest) => (quoting.read? rest).map fun (text, rest) => (.text text, rest)
  | none =>
    match depth, chars with
    | depth + 1, '[' :: rest =>
      (items (read? depth) chars.length rest).map fun (items, rest) => (.sequence items, rest)
    | depth + 1, '\x7b' :: rest =>
      match skipBlanks rest with
      | '\x7d' :: rest => some (.mapping [], rest)
      | _ => (entries (read? depth) [] chars.length rest).map fun (table, rest) =>
          (table.document, rest)
    | _, chars =>
      let (word, rest) := Word.split chars
      (Word.document? word).map fun document => (document, rest)

end ValueReader

end Pipework.Toml
