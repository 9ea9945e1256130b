import Pipework.Binary64

set_option autoImplicit false

/-! # Documents

A `Document` is the content of a configuration file as a tree, before it is known what its parts are
good for. Unlike a value it may hold tags, mappings whose keys are anything and integers beyond 64
bits with a sign. -/

namespace Pipework

/-! ## Types -/

/-- The kinds of documents. -/
inductive DocumentKind
  | null
  | bool
  | number
  | text
  | sequence
  | mapping
  | tagged
deriving DecidableEq, Repr

/-- The name of a kind in messages. -/
def DocumentKind.name : DocumentKind → String
  | null => "null"
  | bool => "bool"
  | number => "number"
  | text => "string"
  | sequence => "sequence"
  | mapping => "mapping"
  | tagged => "tagged value"

/-- A tree of configuration data. -/
inductive Document
  | null
  | bool (b : Bool)
  | int (n : Int)
  | float (x : Binary64)
  | text (s : String)
  | sequence (items : List Document)
  /-- Entries in the order in which they stand. -/
  | mapping (entries : List (Document × Document))
  /-- A document under a tag, which is held without its exclamation mark. -/
  | tagged (tag : String) (content : Document)

namespace Document

/-- The kind of a document. -/
def kind : Document → DocumentKind
  | null => .null
  | bool _ => .bool
  | int _ => .number
  | float _ => .number
  | text _ => .text
  | sequence _ => .sequence
  | mapping _ => .mapping
  | tagged .. => .tagged

/-- A tag without its exclamation mark; an exclamation mark by itself is kept. -/
def bareTag (tag : String) : String :=
  match tag.toList with
  | '!' :: c :: rest => String.ofList (c :: rest)
  | _ => tag

/-! ## Keys -/

mutual

/-- Two documents are the same key. Every not-a-number is the same key, as are the two zeros, and
    the order of entries does not matter. -/
def sameKey : Document → Document → Bool
  | null, null => true
  | bool a, bool b => a == b
  | int a, int b => a == b
  | float a, float b => (a.isNaN && b.isNaN) || a.sameNumber b
  | text a, text b => a == b
  | sequence as, sequence bs => sameItems as bs
  | mapping as, mapping bs => as.length == bs.length && entriesIn bs as
  | tagged tag a, tagged tag' b => tag == tag' && a.sameKey b
  | _, _ => false

/-- Two lists of documents are the same. -/
def sameItems : List Document → List Document → Bool
  | [], [] => true
  | a :: as, b :: bs => a.sameKey b && sameItems as bs
  | _, _ => false

/-- Every entry is one of `others`. -/
def entriesIn (others : List (Document × Document)) : List (Document × Document) → Bool
  | [] => true
  | (key, content) :: rest =>
    others.any (fun other => key.sameKey other.1 && content.sameKey other.2) &&
      entriesIn others rest

end

/-- `entries` with `content` under `key`, in the place that the key has or else at the end. -/
def putEntry (key content : Document) :
    List (Document × Document) → List (Document × Document)
  | [] => [(key, content)]
  | (other, old) :: rest =>
    if other.sameKey key then (other, content) :: rest
    else (other, old) :: putEntry key content rest

/-- The mapping of `entries`; of two contents for one key the later stays, in the place of the
    earlier. -/
def ofEntries (entries : List (Document × Document)) : Document :=
  .mapping (entries.foldl (fun done (key, content) => putEntry key content done) [])

/-- Some entry has the key. -/
def hasKey (entries : List (Document × Document)) (key : Document) : Bool :=
  entries.any fun entry => entry.1.sameKey key

end Document

end Pipework
