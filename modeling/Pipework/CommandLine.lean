import Pipework.Cookbook.Load

set_option autoImplicit false

/-! # The command line

A `Command` lists the templates of a cookbook or runs one of its pipelines on a text. What it comes
to is a `Report`, a function of the command, the files and the random bytes: the lines of output,
notes on the way (only if a trace was asked for) and perhaps a failure. -/

namespace Pipework

/-! ## Commands -/

/-- The name of the program. -/
def programName : String := "the-cookbook"

/-- The word that stands for the catalogue where a cookbook file is expected. -/
def catalogueFlag : String := "--builtins"

/-- What the program is asked to do. -/
inductive Command
  /-- List the templates of a cookbook. -/
  | list (cookbook : String)
  /-- Run a pipeline of a cookbook on a text, perhaps with a note on every stage. -/
  | run (traced : Bool) (cookbook pipeline input : String)
  /-- Nothing that makes sense. -/
  | usage
deriving DecidableEq, Repr

namespace Command

/-- The command to run a pipeline that three words are. -/
def ofWords (traced : Bool) : List String → Command
  | [cookbook, pipeline, input] => .run traced cookbook pipeline input
  | _ => .usage

/-- The command that arguments are. -/
def ofArguments : List String → Command
  | "--list" :: rest => .list (rest.headD catalogueFlag)
  | "--trace" :: rest => ofWords true rest
  | words => ofWords false words

/-- The file that the command needs. -/
def path? : Command → Option String
  | .list cookbook | .run _ cookbook _ _ => if cookbook = catalogueFlag then none else some cookbook
  | .usage => none

end Command

/-- How the program is called. -/
def usageText : String :=
  String.intercalate "\n"
    [s!"Usage: {programName} [--trace] <cookbook.yaml|{catalogueFlag}> <pipeline> <input>",
      s!"       {programName} --list [cookbook.yaml]",
      s!"Example: {programName} {catalogueFlag} sha256_hex \"hello\"",
      s!"Example: {programName} --trace configs/cookbook.yaml fingerprint \"hello\""]

/-! ## Reports -/

/-- A failure, with the messages of the errors that led to it. -/
structure Failure where
  message : String
  causes : List String

/-- A note of a traced run. -/
inductive Note
  | started (pipeline : String) (stageCount : Nat)
  | stage (observation : Observation)
  | completed

/-- What a command came to. -/
structure Report where
  /-- Lines of output. -/
  output : List String
  notes : List Note
  failure : Option Failure

namespace Failure

/-- `text` behind `first`, its further lines behind `further`. -/
def indented (first further text : String) : String :=
  first ++ String.intercalate ("\n" ++ further) ((Text.splitOn '\n' text.toList).map String.ofList)

/-- A cause among several, with its number. -/
def numbered (number : Nat) (text : String) : String :=
  let digits := toString number
  indented (String.ofList (List.replicate (5 - digits.length) ' ') ++ digits ++ ": ") "       " text

/-- The failure in full, each cause on lines of its own. -/
def text (failure : Failure) : String :=
  let causes :=
    match failure.causes with
    | [] => []
    | [cause] => ["", "Caused by:", indented "    " "    " cause]
    | causes => "" :: "Caused by:" :: causes.mapIdx numbered
  String.intercalate "\n" (s!"Error: {failure.message}" :: causes)

/-- A failure to load a cookbook. -/
def ofConfigError (path : String) (e : ConfigError) : Failure :=
  ⟨s!"failed to load cookbook {path}", e.message :: e.causes⟩

/-- A failure to find a pipeline. -/
def ofNotFound (cookbook : Cookbook) (e : NotFound) : Failure :=
  ⟨"available pipelines: " ++ String.intercalate ", " cookbook.pipelines.names, [e.message]⟩

/-- A failure of a run. -/
def ofRunError (e : RunError) : Failure := ⟨e.message, [e.source.message]⟩

end Failure

/-- The line of a note, `elapsed` being the time that the run took. -/
def Note.text (elapsed : String) : Note → String
  | .started pipeline stageCount => s!"Tracing '{pipeline}' ({stageCount} stages):"
  | .stage observation =>
    let value := observation.value
    s!"  [{observation.index}] " ++ observation.stage.label ++ " -> " ++ value.render ++
      s!" ({value.kind.name})"
  | .completed => s!"Completed in {elapsed}"

namespace Report

/-- Nothing but a failure. -/
def ofFailure (failure : Failure) : Report := ⟨[], [], some failure⟩

/-- The exit code: zero if there is no failure. -/
def code (report : Report) : Nat := if report.failure.isSome then 1 else 0

/-- The lines of the notes and the failure. -/
def diagnostics (elapsed : String) (report : Report) : List String :=
  report.notes.map (Note.text elapsed) ++ report.failure.toList.map Failure.text

end Report

/-! ## Executing -/

namespace Command

/-- The cookbook that a word stands for. -/
def openCookbook (read : FileReader) (word : String) : Except Failure Cookbook :=
  if word = catalogueFlag then .ok Cookbook.withCatalogue.cookbook
  else (Cookbook.load read word).mapError (Failure.ofConfigError word)

/-- The templates of a cookbook, as lines. -/
def listing (cookbook : Cookbook) : List String :=
  "Steps:" :: cookbook.steps.names.map ("  " ++ ·) ++
    "Pipelines:" :: cookbook.pipelines.names.map ("  " ++ ·)

/-- What the run of a pipeline came to. -/
def reportRun (traced : Bool) (name : String) (pipeline : Pipeline Transform)
    (outcome : Outcome RunError) : Report :=
  let started : List Note :=
    if traced then .started name pipeline.size :: outcome.log.observations.map .stage else []
  match outcome.result with
  | .ok value => ⟨[value.render], started ++ if traced then [.completed] else [], none⟩
  | .error e => ⟨[], started, some (.ofRunError e)⟩

/-- What a command comes to. -/
def execute (read : FileReader) (source : RandomSource) : Command → Report
  | .usage => .ofFailure ⟨usageText, []⟩
  | .list word =>
    match openCookbook read word with
    | .error failure => .ofFailure failure
    | .ok cookbook => ⟨listing cookbook, [], none⟩
  | .run traced word name input =>
    match openCookbook read word with
    | .error failure => .ofFailure failure
    | .ok cookbook =>
      match cookbook.pipelines.get name with
      | .error e => .ofFailure (.ofNotFound cookbook e)
      | .ok pipeline =>
        let value : Value := .text input
        reportRun traced name pipeline
          (if traced then pipeline.runObserved source value else pipeline.run source value)

end Command

end Pipework
