import Pipework.Error.Fault

set_option autoImplicit false

/-! # Arguments

The arguments bound to a step. A transform looks an argument up by name and, if no value is bound to
the name, by position. Null counts as absent, so binding a name to null clears what stands at its
position. -/

namespace Pipework

/-- Positional and named arguments. -/
structure Arguments where
  positional : List Value
  named : Dict Value

namespace Arguments

/-- No arguments. -/
def empty : Arguments := ⟨[], .empty⟩

/-- Nothing is bound. -/
def isEmpty (args : Arguments) : Bool := args.positional.isEmpty && args.named.isEmpty

/-! ## Binding -/

/-- The arguments with other positional ones. -/
def withPositional (args : Arguments) (positional : List Value) : Arguments :=
  { args with positional }

/-- The arguments with `value` bound to `name`. -/
def withNamed (args : Arguments) (name : String) (value : Value) : Arguments :=
  { args with named := args.named.insert name value }

/-- The arguments with overrides: positional ones replace all of those bound before, named ones are
    merged in key by key. -/
def merged (args : Arguments) (positional : Option (List Value)) (named : Option (Dict Value)) :
    Arguments :=
  { positional := positional.getD args.positional
    named := args.named.override (named.getD .empty) }

/-! ## Looking up -/

/-- The argument `name`, or else the one at `index`; null counts as absent. -/
def get? (args : Arguments) (index : Nat) (name : String) : Option Value :=
  ((args.named.get? name).or args.positional[index]?).filter fun value => !value.isNull

/-- A text argument. -/
def text? (args : Arguments) (index : Nat) (name : String) :
    Except ArgumentError (Option String) :=
  match args.get? index name with
  | none => .ok none
  | some (.text s) => .ok (some s)
  | some other => .error (.notText other.kind)

/-- A byte string argument; text is taken in UTF-8. -/
def bytes? (args : Arguments) (index : Nat) (name : String) :
    Except ArgumentError (Option Bytes) :=
  match args.get? index name with
  | none => .ok none
  | some (.bytes b) => .ok (some b)
  | some (.text s) => .ok (some (Utf8.encode s))
  | some other => .error (.notBytes other.kind)

/-- A byte string argument that has to be bound. -/
def bytes (args : Arguments) (index : Nat) (name : String) : Except ArgumentError Bytes :=
  match args.bytes? index name with
  | .error e => .error e
  | .ok none => .error .missing
  | .ok (some b) => .ok b

/-- A count. -/
def nat? (args : Arguments) (index : Nat) (name : String) : Except ArgumentError (Option Nat) :=
  match args.get? index name with
  | none => .ok none
  | some (.int n) => if n.toInt < 0 then .error .negative else .ok (some n.toInt.toNat)
  | some other => .error (.notInt other.kind)

/-- A number of 32 bits without a sign. -/
def nat32? (args : Arguments) (index : Nat) (name : String) : Except ArgumentError (Option Nat) :=
  match args.get? index name with
  | none => .ok none
  | some (.int n) =>
    if 0 ≤ n.toInt ∧ n.toInt < 0x100000000 then .ok (some n.toInt.toNat) else .error .beyond32Bits
  | some other => .error (.notInt other.kind)

/-- A flag. -/
def bool? (args : Arguments) (index : Nat) (name : String) : Except ArgumentError (Option Bool) :=
  match args.get? index name with
  | none => .ok none
  | some (.bool b) => .ok (some b)
  | some other => .error (.notBool other.kind)

/-! ## Diagnostic form -/

/-- The arguments in diagnostic form, which shows the kinds of positional ones and the names of the
    others. -/
def form (args : Arguments) : String :=
  recordForm "Arguments"
    [("positional", Text.bracketed (args.positional.map fun v => Text.quoted v.kind.name)),
      ("named", Text.bracketed (args.named.keys.map Text.quoted))]

end Arguments

end Pipework
