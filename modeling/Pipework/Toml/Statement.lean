import Pipework.Toml.Value

set_option autoImplicit false

/-! # Statements

A TOML text is a list of statements: headers, each of which opens a table, and pairs of a key and a
value, which belong to the table that was opened last. `Table.ofText?` reads a text and fills the
tables in the order of its statements. -/

namespace Pipework.Toml

/-- A line of a TOML text, or several lines with a value that goes over them. -/
inductive Statement
  /-- The header of a table. -/
  | table (key : Key)
  /-- The header of one of several tables. -/
  | nextTable (key : Key)
  | pair (key : Key) (document : Document)

namespace Statement

/-- The statement that a text starts with, without the rest of its line, and what follows it. -/
def start? (chars : List Char) : Option (Statement × List Char) :=
  match chars with
  | '[' :: '[' :: rest => do
    let (key, rest) ← Key.read? rest
    return (.nextTable key, ← skip? ']' (← skip? ']' rest))
  | '[' :: rest => do
    let (key, rest) ← Key.read? rest
    return (.table key, ← skip? ']' rest)
  | chars =>
    let value := ValueReader.read? ValueReader.maxDepth
    (ValueReader.pair value chars).map fun ((key, document), rest) => (.pair key document, rest)

/-- The statements, at most `count`, of a text. Each ends its line. -/
def list? : Nat → List Char → Option (List Statement)
  | 0, _ => none
  | count + 1, chars =>
    match skipGap chars with
    | [] => some []
    | chars => do
      let (statement, rest) ← start? chars
      let statements ← list? count (← skipLineEnd? rest)
      return statement :: statements

/-- The statements of a text, which may start with a byte order mark. -/
def ofText? (text : String) : Option (List Statement) :=
  let chars :=
    match text.toList with
    | '\uFEFF' :: rest => rest
    | chars => chars
  list? (chars.length + 1) chars

end Statement

namespace Table

/-- Tables while they are filled. -/
structure Draft where
  /-- The way to the table that was opened last. -/
  current : List String
  /-- The outermost table. -/
  root : Table

/-- No statement. -/
def Draft.empty : Draft := ⟨[], []⟩

/-- The tables with what a statement adds to them. -/
def Draft.add (draft : Draft) : Statement → Option Draft
  | .table key =>
    (draft.root.alterAt key.path (openTable key.name)).map (.mk (key.path ++ [key.name]))
  | .nextTable key =>
    (draft.root.alterAt key.path (openNext key.name)).map (.mk (key.path ++ [key.name]))
  | .pair key document =>
    (draft.root.alterAt draft.current (put key.path key.name document)).map (.mk draft.current)

/-- The outermost table that statements fill. -/
def ofStatements? (statements : List Statement) : Option Table :=
  (statements.foldlM Draft.add .empty).map Draft.root

/-- The outermost table of a text. -/
def ofText? (text : String) : Option Table := do ofStatements? (← Statement.ofText? text)

end Table

end Pipework.Toml
