import Pipework.Arguments
import Pipework.Value.Render

set_option autoImplicit false

/-! # Sample transforms

Three functions that are in no catalogue, for trying out pipelines with transforms of the host
program. -/

namespace Pipework.Transform

/-- The input text with the argument `suffix`, or the first one, behind it. -/
def appendSuffix (value : Value) (args : Arguments) : Except TransformError Value :=
  match args.text? 0 "suffix" with
  | .error e => .error (e.toError "suffix")
  | .ok suffix =>
    match value.expectText with
    | .error fault => .error fault.toError
    | .ok text => .ok (.text (text ++ suffix.getD ""))

/-- Fails whatever the input is. -/
def alwaysFail (_ : Value) (_ : Arguments) : Except TransformError Value :=
  .error (.other "simulated failure")

/-- Returns its input. -/
def identity (value : Value) (_ : Arguments) : Except TransformError Value := .ok value

end Pipework.Transform
