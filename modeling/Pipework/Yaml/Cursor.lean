import Pipework.Yaml.Character

set_option autoImplicit false

/-! # Positions in a text

A `Cursor` is a place in a text: what follows it, and where it stands. What reads a token works on
the text that follows and returns the part it leaves; `Cursor.moveTo` then finds the place. -/

namespace Pipework.Yaml

/-- A place in a text. -/
structure Place where
  /-- How many characters come before. -/
  index : Nat
  line : Nat
  column : Nat
deriving DecidableEq, Repr

/-- The place behind `c`, which `next` follows. A carriage return before a line feed is half of a
    line break. -/
def Place.after (place : Place) (c : Char) (next : Option Char) : Place :=
  if c == '\r' && next == some '\n' then { place with index := place.index + 1 }
  else if isBreak c then ⟨place.index + 1, place.line + 1, 0⟩
  else ⟨place.index + 1, place.line, place.column + 1⟩

/-- A place in a text with what follows it. -/
structure Cursor where
  rest : List Char
  place : Place

namespace Cursor

/-- The start of a text. -/
def start (text : List Char) : Cursor := ⟨text, ⟨0, 0, 0⟩⟩

/-- The place `count` characters further on. -/
def walk (place : Place) : Nat → List Char → Cursor
  | 0, rest => ⟨rest, place⟩
  | _, [] => ⟨[], place⟩
  | count + 1, c :: rest => walk (place.after c rest.head?) count rest

/-- The place from which `rest` follows, an end of what follows this one. -/
def moveTo (cursor : Cursor) (rest : List Char) : Cursor :=
  walk cursor.place (cursor.rest.length - rest.length) cursor.rest

/-- The place `count` characters further on. -/
def skip (cursor : Cursor) (count : Nat) : Cursor := walk cursor.place count cursor.rest

/-- The next character. -/
def next? (cursor : Cursor) : Option Char := cursor.rest.head?

end Cursor

end Pipework.Yaml
