import Pipework.Pipeline.Basic
import Pipework.Registry

set_option autoImplicit false

/-! # Specifiers

A `Specifier` says what one stage of a pipeline shall be. As a value it is the name of a step or an
override tuple: a list of the name, positional arguments and named ones, of which the last two may
be left out or null. `Specifier.ofValue` reads that form, and `Specifier.stage` finds the stage. -/

namespace Pipework

instance {τ : Type} : Template (Step τ) := ⟨.step⟩

instance {τ : Type} : Template (Pipeline τ) := ⟨.pipeline⟩

/-! ## Types -/

/-- What a stage shall be. -/
inductive Specifier
  /-- A transform as it is. -/
  | bare (transform : Transform)
  /-- The registered step of that name. -/
  | named (name : String)
  /-- The registered step of that name with overrides, as in `Arguments.merged`. -/
  | overridden (name : String) (args : Option (List Value)) (kwargs : Option (Dict Value))
  /-- A step as it is. -/
  | prebuilt (step : Step Transform)

/-- Why a value is no specifier. -/
inductive SpecifierError
  /-- An override tuple has that many items. -/
  | arity (count : Nat)
  | nameNotText (found : Kind)
  | positionalMap
  | namedNotMap (found : Kind)
  /-- The value is neither a name nor a tuple. -/
  | wrongShape (found : Kind)
deriving DecidableEq, Repr

/-- The reason in words. -/
def SpecifierError.reason : SpecifierError → String
  | arity count => s!"override tuple must have 1 to 3 elements, got {count}"
  | nameNotText found => s!"step name must be text, found {found.name}"
  | positionalMap => "positional overrides must be a list or a scalar, found map"
  | namedNotMap found => s!"named overrides must be a map, found {found.name}"
  | wrongShape found => s!"expected a step name or an override tuple, found {found.name}"

namespace Specifier

/-! ## Reading -/

/-- The positional arguments of an override tuple. -/
def positionalOverride : Value → Except SpecifierError (Option (List Value))
  | .null => .ok none
  | .map _ => .error .positionalMap
  | value => .ok (some value.toPositional)

/-- The named arguments of an override tuple. -/
def namedOverride : Value → Except SpecifierError (Option (Dict Value))
  | .null => .ok none
  | .map entries => .ok (some entries)
  | other => .error (.namedNotMap other.kind)

/-- The specifier of a name and overrides, which may be none. -/
def ofOverrides (name : String) (args : Option (List Value)) (kwargs : Option (Dict Value)) :
    Specifier :=
  match args, kwargs with
  | none, none => .named name
  | args, kwargs => .overridden name args kwargs

/-- The specifier of a name and overrides as they stand in a tuple. -/
def ofParts (name args kwargs : Value) : Except SpecifierError Specifier :=
  match name with
  | .text name => do
    let args ← positionalOverride args
    let kwargs ← namedOverride kwargs
    return ofOverrides name args kwargs
  | other => .error (.nameNotText other.kind)

/-- The specifier that an override tuple is. -/
def ofTuple : List Value → Except SpecifierError Specifier
  | [name] => ofParts name .null .null
  | [name, args] => ofParts name args .null
  | [name, args, kwargs] => ofParts name args kwargs
  | items => .error (.arity items.length)

/-- The specifier that a value is. -/
def ofValue : Value → Except SpecifierError Specifier
  | .text name => .ok (.named name)
  | .list items => ofTuple items
  | other => .error (.wrongShape other.kind)

/-! ## Stages -/

/-- The stage that is specified, steps being found in `steps`. -/
def stage (steps : Registry (Step Transform)) :
    Specifier → Except NotFound (Stage Transform)
  | .bare transform => .ok (.bare transform)
  | .named name => do return .step (← steps.get name)
  | .overridden name args kwargs => do
    return .step ((← steps.get name).withOverrides args kwargs)
  | .prebuilt step => .ok (.step step)

/-- The pipeline without a name whose stages are specified; the first name that is not registered is
    refused. -/
def pipeline (steps : Registry (Step Transform))
    (specifiers : List Specifier) : Except NotFound (Pipeline Transform) := do
  return ⟨none, ← specifiers.mapM (stage steps)⟩

/-! ## Diagnostic form -/

/-- The specifier in diagnostic form. -/
def form : Specifier → String
  | .bare _ => "Bare"
  | .named name => "Named(" ++ Text.quoted name ++ ")"
  | .overridden name args kwargs =>
    recordForm "NamedWithOverrides"
      [("name", Text.quoted name),
        ("positional", optionForm (args.map fun items => toString items.length)),
        ("named", optionForm (kwargs.map fun d => Text.bracketed (d.keys.map Text.quoted)))]
  | .prebuilt step => "Prebuilt(" ++ step.form ++ ")"

end Specifier

end Pipework
