import Pipework.Document.Basic

set_option autoImplicit false

/-! # Tables

While a TOML text is read, a table remembers how it came to be, since that decides what may still be
added to it: a table with a header of its own takes no second header and nothing from dotted keys
outside, and no key is given twice. Entries stay in the order in which they are written. -/

namespace Pipework.Toml

/-! ## Types -/

/-- The way to a place in nested tables. -/
structure Key where
  /-- The names of the tables on the way. -/
  path : List String
  name : String
deriving DecidableEq, Repr

/-- How a table came to be. -/
inductive Origin
  /-- It has a header. -/
  | header
  /-- It is on the way to a table with a header. -/
  | implied
  /-- It is on the way of a dotted key. -/
  | dotted
deriving DecidableEq, Repr

/-- What stands under a name. -/
inductive Item
  | value (document : Document)
  | table (origin : Origin) (entries : List (String × Item))
  /-- Tables under one header; only the last one can be added to. -/
  | tables (earlier : List (List (String × Item))) (last : List (String × Item))

/-- The content of a table. -/
abbrev Table := List (String × Item)

namespace Table

/-- The table with what `change` makes of the item under `name`, in its place or else at the end. -/
def alter (name : String) (change : Option Item → Option Item) : Table → Option Table
  | [] => (change none).map fun item => [(name, item)]
  | (other, item) :: rest =>
    if other = name then (change (some item)).map fun item => (name, item) :: rest
    else (alter name change rest).map fun rest => (other, item) :: rest

/-! ## Keys and values -/

/-- The table with a document under a name that is new in it. -/
def addNew (name : String) (document : Document) (table : Table) : Option Table :=
  table.alter name fun
    | none => some (.value document)
    | some _ => none

/-- The table with a document under a dotted key. Dotted keys make the tables on their way; the last
    of these has to be one that only dotted keys have made, and none may have a header. -/
def put (path : List String) (name : String) (document : Document) (table : Table) : Option Table :=
  match path with
  | [] => table.addNew name document
  | step :: path =>
    table.alter step fun
      | none => (put path name document []).map (.table .dotted)
      | some (.value _) => none
      | some (.table .header _) => none
      | some (.table .implied entries) =>
        if path.isEmpty then none else (put path name document entries).map (.table .implied)
      | some (.table .dotted entries) => (put path name document entries).map (.table .dotted)
      | some (.tables earlier last) =>
        if path.isEmpty then none else (put path name document last).map (.tables earlier)

/-! ## Headers -/

/-- The table with what `change` makes of the table at the end of a path of headers, which makes the
    tables on its way. Of several tables under one header the last is meant. -/
def alterAt (path : List String) (change : Table → Option Table) (table : Table) : Option Table :=
  match path with
  | [] => change table
  | step :: path =>
    table.alter step fun
      | none => (alterAt path change []).map (.table .implied)
      | some (.value _) => none
      | some (.table origin entries) => (alterAt path change entries).map (.table origin)
      | some (.tables earlier last) => (alterAt path change last).map (.tables earlier)

/-- The table with a table under `name` that has a header. One that was implied so far moves to the
    end with what is in it. -/
def openTable (name : String) (table : Table) : Option Table :=
  match table.lookup name with
  | none => some (table ++ [(name, .table .header [])])
  | some (.table .implied entries) =>
    some (table.filter (fun entry => entry.1 != name) ++ [(name, .table .header entries)])
  | some _ => none

/-- The table with one more table under `name`, which holds several. -/
def openNext (name : String) (table : Table) : Option Table :=
  table.alter name fun
    | none => some (.tables [] [])
    | some (.tables earlier last) => some (.tables (earlier ++ [last]) [])
    | some _ => none

/-! ## Documents -/

mutual

/-- What an item is once the text has been read. -/
def itemDocument : Item → Document
  | .value document => document
  | .table _ entries => .mapping (entryDocuments entries)
  | .tables earlier last => .sequence (tableDocuments earlier ++ [.mapping (entryDocuments last)])

/-- The documents of entries, in order. -/
def entryDocuments : List (String × Item) → List (Document × Document)
  | [] => []
  | (name, item) :: rest => (.text name, itemDocument item) :: entryDocuments rest

/-- The documents of tables, in order. -/
def tableDocuments : List (List (String × Item)) → List Document
  | [] => []
  | entries :: rest => .mapping (entryDocuments entries) :: tableDocuments rest

end

/-- The document that a table is. -/
def document (table : Table) : Document := .mapping (entryDocuments table)

end Table

end Pipework.Toml
