import Pipework.Text.Quoted

set_option autoImplicit false

/-! # Failures of transforms

A transform fails with a `TransformError`. When it ran as part of a step or a pipeline, the failure
is located: `RunError` adds the step's name and the position of the stage. A pipeline that runs as a
stage of another one fails with the located failure of its own stage inside. Wordings hold kinds,
offsets and lengths, never the value at hand. -/

namespace Pipework

/-! ## Types -/

/-- A failure with the place it happened at. -/
structure Located (ε : Type) where
  /-- The name of the step; a bare transform has none. -/
  step : Option String
  /-- The index of the stage; a step applied by itself has none. -/
  position : Option Nat
  source : ε

/-- The failure of a single transform. -/
inductive TransformError
  /-- The value has a kind that is not accepted. -/
  | type (expected found : String)
  /-- A decoder met malformed input. -/
  | format (codec reason : String)
  /-- A bound argument is of no use. -/
  | invalidArgument (name reason : String)
  /-- An argument that is needed is not bound. -/
  | missingArgument (name : String)
  /-- The value has the right kind and form, but cannot be used. -/
  | invalidValue (reason : String)
  /-- A cipher could not be used. -/
  | crypto (reason : String)
  /-- A tag does not vouch for a ciphertext. -/
  | authentication
  /-- A pipeline that ran as a stage failed. -/
  | pipeline (inner : Located TransformError)
  /-- Any other failure. -/
  | other (reason : String)

/-- The failure of a transform within a step or a pipeline. -/
abbrev RunError := Located TransformError

/-! ## Wording -/

namespace TransformError

/-- The name of the sort of failure. -/
def kind : TransformError → String
  | type .. => "type"
  | format .. => "format"
  | invalidArgument .. => "invalid_argument"
  | missingArgument .. => "missing_argument"
  | invalidValue .. => "invalid_value"
  | crypto .. => "crypto"
  | authentication => "authentication"
  | pipeline .. => "pipeline"
  | other .. => "other"

end TransformError

/-- Where a failure happened, in front of what happened. -/
def failureText (step : Option String) (position : Option Nat) (source : String) : String :=
  let subject :=
    match step with
    | some step => s!"step '{step}'"
    | none => "bare transform"
  let place :=
    match position with
    | some position => s!" at position {position}"
    | none => ""
  subject ++ place ++ " failed: " ++ source

/-- The message of a failure. -/
def TransformError.message : TransformError → String
  | type expected found => s!"type error: expected {expected}, found {found}"
  | format codec reason => s!"malformed {codec} input: {reason}"
  | invalidArgument name reason => s!"invalid argument '{name}': {reason}"
  | missingArgument name => s!"missing required argument '{name}'"
  | invalidValue reason => s!"invalid value: {reason}"
  | crypto reason => s!"cryptographic error: {reason}"
  | authentication => "authentication failed: ciphertext or tag does not verify"
  | pipeline ⟨step, position, source⟩ =>
    "nested pipeline failed: " ++ failureText step position source.message
  | other reason => reason

/-- The message of a located failure. -/
def RunError.message (e : RunError) : String := failureText e.step e.position e.source.message

/-! ## Diagnostic form -/

/-- An optional item in diagnostic form. -/
def optionForm (item : Option String) : String :=
  match item with
  | some item => "Some(" ++ item ++ ")"
  | none => "None"

/-- A record in diagnostic form. -/
def recordForm (name : String) (fields : List (String × String)) : String :=
  name ++ " \x7b " ++ String.intercalate ", " (fields.map fun (key, item) => key ++ ": " ++ item) ++
    " \x7d"

/-- A located failure in diagnostic form, its source given in that form. -/
def locatedForm (step : Option String) (position : Option Nat) (source : String) : String :=
  recordForm "TransformationError"
    [("step", optionForm (step.map Text.quoted)),
      ("position", optionForm (position.map toString)),
      ("source", source)]

/-- A failure in diagnostic form. -/
def TransformError.form : TransformError → String
  | type expected found =>
    recordForm "Type" [("expected", Text.quoted expected), ("found", Text.quoted found)]
  | format codec reason =>
    "Format(" ++
      recordForm "FormatError" [("codec", Text.quoted codec), ("reason", Text.quoted reason)] ++ ")"
  | invalidArgument name reason =>
    recordForm "InvalidArgument" [("name", Text.quoted name), ("reason", Text.quoted reason)]
  | missingArgument name => "MissingArgument(" ++ Text.quoted name ++ ")"
  | invalidValue reason => "InvalidValue(" ++ Text.quoted reason ++ ")"
  | crypto reason => "Crypto(" ++ Text.quoted reason ++ ")"
  | authentication => "Authentication"
  | pipeline ⟨step, position, source⟩ => "Pipeline(" ++ locatedForm step position source.form ++ ")"
  | other reason => "Other(" ++ Text.quoted reason ++ ")"

/-- A located failure in diagnostic form. -/
def RunError.form (e : RunError) : String := locatedForm e.step e.position e.source.form

end Pipework
