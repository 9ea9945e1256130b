import Pipework.Arguments

set_option autoImplicit false

/-! # Reading parameters

The readers of `Arguments` for the parameters of the catalogue: each looks its argument up by the
parameter's position and name, and a failure is a fault that names the parameter. -/

namespace Pipework.Parameter

/-- `result`, its error as a fault of the parameter. -/
def blame {α : Type} (parameter : Parameter) (result : Except ArgumentError α) : Except Fault α :=
  result.mapError (Fault.argument parameter)

/-- A text, if one is bound. -/
def text? (parameter : Parameter) (args : Arguments) : Except Fault (Option String) :=
  parameter.blame (args.text? parameter.index parameter.name)

/-- A byte string or a text, if one is bound. -/
def bytes? (parameter : Parameter) (args : Arguments) : Except Fault (Option Bytes) :=
  parameter.blame (args.bytes? parameter.index parameter.name)

/-- A byte string or a text, which has to be bound. -/
def bytes (parameter : Parameter) (args : Arguments) : Except Fault Bytes :=
  parameter.blame (args.bytes parameter.index parameter.name)

/-- A count, if one is bound. -/
def nat? (parameter : Parameter) (args : Arguments) : Except Fault (Option Nat) :=
  parameter.blame (args.nat? parameter.index parameter.name)

/-- A number of 32 bits, if one is bound. -/
def nat32? (parameter : Parameter) (args : Arguments) : Except Fault (Option Nat) :=
  parameter.blame (args.nat32? parameter.index parameter.name)

/-- A flag, if one is bound. -/
def bool? (parameter : Parameter) (args : Arguments) : Except Fault (Option Bool) :=
  parameter.blame (args.bool? parameter.index parameter.name)

end Pipework.Parameter
