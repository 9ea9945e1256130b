import Pipework.Decimal.Reader
import Pipework.Document.Basic
import Pipework.Text.Radix

set_option autoImplicit false

/-! # What scalars mean

A plain scalar without a tag is null, a truth value or a number if it is spelled like one, and text
otherwise. Quoted scalars are text. The tags of the core schema ask for one of these readings; a tag
that starts with an exclamation mark stays with the document. -/

namespace Pipework.Yaml.Scalar

/-! ## Null and truth values -/

/-- A word for null. -/
def isNull (text : String) : Bool := ["~", "null", "Null", "NULL"].contains text

/-- The truth value that a word stands for. -/
def bool? (text : String) : Option Bool :=
  if ["true", "True", "TRUE"].contains text then some true
  else if ["false", "False", "FALSE"].contains text then some false
  else none

/-! ## Integers -/

/-- The number that digits spell; there is at least one. -/
def digits? (radix : Nat) (chars : List Char) : Option Nat :=
  if chars.isEmpty then none else Radix.number? radix chars

/-- A zero and further digits, perhaps behind a sign, which count as text. -/
def hasLeadingZero (chars : List Char) : Bool :=
  let digits := if chars.head?.any fun c => c == '-' || c == '+' then chars.tail else chars
  match digits with
  | '0' :: next :: rest => (next :: rest).all Char.isDigit
  | _ => false

/-- The number that a text without a sign spells. -/
def magnitude? (chars : List Char) : Option Nat :=
  match chars with
  | '0' :: 'x' :: rest => digits? 16 rest
  | '0' :: 'o' :: rest => digits? 8 rest
  | '0' :: 'b' :: rest => digits? 2 rest
  | _ => if hasLeadingZero chars then none else digits? 10 chars

/-- What an integer comes to. -/
inductive IntReading
  | fits (n : Int)
  /-- It takes more than 64 bits. -/
  | tooLarge
  /-- It takes more than 128 bits, or is none. -/
  | notInt
deriving DecidableEq, Repr

/-- The integer that a text spells, perhaps behind a sign. -/
def readInt (chars : List Char) : IntReading :=
  match chars with
  | '-' :: rest =>
    match magnitude? rest with
    | some n =>
      if n ≤ 0x8000000000000000 then .fits (-n)
      else if n ≤ Nat.pow 2 127 then .tooLarge
      else .notInt
    | none => .notInt
  | _ =>
    match magnitude? (if chars.head? == some '+' then chars.tail else chars) with
    | some n =>
      if n < 0x10000000000000000 then .fits n
      else if n < Nat.pow 2 128 then .tooLarge
      else .notInt
    | none => .notInt

/-! ## Floating-point numbers -/

/-- The finite number that a text spells, perhaps behind a minus sign. -/
def finite? (chars : List Char) : Option Binary64 := do
  let (isNegative, chars) :=
    match chars with
    | '-' :: rest => (true, rest)
    | chars => (false, chars)
  let x := (← Decimal.read? chars).toBinary64
  if x.isFinite then return if isNegative then x.neg else x else none

/-- The floating-point number that a text spells. -/
def float? (text : String) : Option Binary64 :=
  if [".nan", ".NaN", ".NAN"].contains text then some .nan
  else if ["-.inf", "-.Inf", "-.INF"].contains text then some Binary64.infinity.neg
  else
    let chars := text.toList
    let signed := chars.head? == some '+'
    let chars := if signed then chars.tail else chars
    if [".inf", ".Inf", ".INF"].contains (String.ofList chars) then some .infinity
    else if signed && chars.head?.any (fun c => c == '-' || c == '+') then none
    else finite? chars

/-! ## Plain scalars -/

/-- What a plain scalar means. An integer that is too large for 64 bits, but not for 128, is
    refused. -/
def plain? (text : String) : Option Document :=
  if text.isEmpty || isNull text then some .null
  else
    match bool? text with
    | some b => some (.bool b)
    | none =>
      match readInt text.toList with
      | .fits n => some (.int n)
      | .tooLarge => none
      | .notInt =>
        if hasLeadingZero text.toList then some (.text text)
        else
          match float? text with
          | some x => some (.float x)
          | none => some (.text text)

/-! ## Tags -/

/-- The tags of the core schema. -/
inductive CoreTag
  | null
  | bool
  | int
  | float
deriving DecidableEq, Repr

/-- What a full tag asks for. -/
inductive TagMeaning
  | core (tag : CoreTag)
  /-- It stays with the document, under this name. -/
  | kept (name : String)
  /-- It has no name. -/
  | nameless
  /-- It asks for text. -/
  | text
deriving DecidableEq, Repr

/-- What a full tag asks for. -/
def tagMeaning (tag : String) : TagMeaning :=
  match tag.toList with
  | ['!'] => .nameless
  | '!' :: name => .kept (Document.bareTag (String.ofList name))
  | _ =>
    match tag with
    | "tag:yaml.org,2002:null" => .core .null
    | "tag:yaml.org,2002:bool" => .core .bool
    | "tag:yaml.org,2002:int" => .core .int
    | "tag:yaml.org,2002:float" => .core .float
    | _ => .text

/-- What a scalar under a tag of the core schema means. -/
def core? (tag : CoreTag) (text : String) : Option Document :=
  match tag with
  | .null => if isNull text then some .null else none
  | .bool => (bool? text).map .bool
  | .int =>
    match readInt text.toList with
    | .fits n => some (.int n)
    | _ => none
  | .float => (float? text).map .float

/-- What a scalar means. -/
def document? (tag : Option String) (isPlain : Bool) (text : String) : Option Document :=
  let untagged := if isPlain then plain? text else some (.text text)
  match tag.map tagMeaning with
  | none => untagged
  | some (.core tag) => core? tag text
  | some (.kept name) => untagged.map (.tagged name)
  | some .nameless => none
  | some .text => some (.text text)

end Pipework.Yaml.Scalar
