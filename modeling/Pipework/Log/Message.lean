import Pipework.Text.Quoted

set_option autoImplicit false

/-! # Log messages

What the library reports while it works: a `Message` has a level, a line of text and fields, and can
open a span, under which other messages are reported. Messages hold names, counts, kinds and sizes,
never a value. -/

namespace Pipework

/-! ## Levels -/

/-- How important a message is. -/
inductive Level
  | trace
  | debug
  | info
  | warn
  | error
deriving DecidableEq, Repr

namespace Level

/-- The name of a level. -/
def name : Level → String
  | trace => "TRACE"
  | debug => "DEBUG"
  | info => "INFO"
  | warn => "WARN"
  | error => "ERROR"

/-- The importance as a number. -/
def rank : Level → Nat
  | trace => 0
  | debug => 1
  | info => 2
  | warn => 3
  | error => 4

/-- Something of this level is reported where everything from `threshold` on is; without a threshold
    nothing is. -/
def passes (level : Level) (threshold : Option Level) : Bool :=
  match threshold with
  | none => false
  | some threshold => threshold.rank ≤ level.rank

end Level

/-! ## Durations -/

/-- A span of time in nanoseconds. -/
structure Duration where
  nanoseconds : Nat
deriving DecidableEq, Repr

namespace Duration

/-- Whole milliseconds. -/
def milliseconds (d : Duration) : Nat := d.nanoseconds / Nat.pow 10 6

/-- `n / 10 ^ places` with as many places as are not zero. -/
def fixed (n places : Nat) : String :=
  let whole := toString (n / Nat.pow 10 places)
  let digits := Nat.toDigits 10 (n % Nat.pow 10 places)
  let padded := List.replicate (places - digits.length) '0' ++ digits
  match (padded.reverse.dropWhile (· == '0')).reverse with
  | [] => whole
  | fraction => whole ++ "." ++ String.ofList fraction

/-- The duration in the greatest unit that it reaches. -/
def text (d : Duration) : String :=
  let n := d.nanoseconds
  if Nat.pow 10 9 ≤ n then fixed n 9 ++ "s"
  else if Nat.pow 10 6 ≤ n then fixed n 6 ++ "ms"
  else if Nat.pow 10 3 ≤ n then fixed n 3 ++ "µs"
  else toString n ++ "ns"

end Duration

/-! ## Fields and spans -/

/-- The content of a field. -/
inductive FieldValue
  | text (s : String)
  | count (n : Nat)
deriving DecidableEq, Repr

/-- A named stretch of work. -/
structure Span where
  name : String
  level : Level
  fields : List (String × FieldValue)
deriving DecidableEq, Repr

/-! ## Messages -/

/-- Something that happened. -/
inductive Message
  /-- A run began. -/
  | runStarted (pipeline : String) (stageCount : Nat) (inputKind : String)
  /-- A run came to its end; the time it took is known only to who measures it. -/
  | runCompleted (pipeline : String) (stageCount : Nat) (outputKind : String)
      (duration : Option Duration)
  /-- A stage failed and ended its run. -/
  | stageFailed (pipeline : String) (step : Option String) (position : Nat) (errorKind : String)
  /-- A stage of a traced run produced a value. -/
  | stageObserved (position : Nat) (stage valueKind : String) (valueSize : Nat)
  /-- A template was stored under a new name. -/
  | templateRegistered (kind name : String) (total : Nat)
  /-- A template replaced another. -/
  | templateOverwritten (kind name : String)
  /-- All entries of a cookbook were registered. -/
  | cookbookLoaded (origin : String) (stepCount pipelineCount : Nat)
deriving DecidableEq, Repr

namespace Message

/-- The level of a message. -/
def level : Message → Level
  | stageFailed .. => .warn
  | cookbookLoaded .. => .info
  | _ => .debug

/-- What stands for the name of a step where there is none. -/
def stepName (step : Option String) : String := step.getD "bare transform"

/-- The line of text. -/
def text : Message → String
  | runStarted pipeline stageCount inputKind =>
    s!"Pipeline '{pipeline}' started: {stageCount} stages, input={inputKind}"
  | runCompleted pipeline stageCount outputKind duration =>
    let taken :=
      match duration with
      | some duration => ", duration=" ++ duration.text
      | none => ""
    s!"Pipeline '{pipeline}' completed: {stageCount} stages, output={outputKind}" ++ taken
  | stageFailed pipeline step position errorKind =>
    let step := stepName step
    s!"Pipeline '{pipeline}' aborted at stage {position} ('{step}'): {errorKind} error"
  | stageObserved position stage valueKind valueSize =>
    s!"Stage {position} {stage} produced {valueKind} (size={valueSize})"
  | templateRegistered kind name total => s!"Registered {kind} '{name}' ({total} templates)"
  | templateOverwritten kind name => s!"Overwrote {kind} '{name}'"
  | cookbookLoaded origin stepCount pipelineCount =>
    s!"Loaded cookbook '{origin}': {stepCount} steps, {pipelineCount} pipelines"

/-- The fields. -/
def fields : Message → List (String × FieldValue)
  | runStarted pipeline stageCount inputKind =>
    [("pipeline", .text pipeline), ("stage_count", .count stageCount),
      ("input_kind", .text inputKind)]
  | runCompleted pipeline stageCount outputKind duration =>
    [("pipeline", .text pipeline), ("stage_count", .count stageCount),
      ("output_kind", .text outputKind)] ++
      duration.toList.map fun d => ("duration_ms", .count (d.milliseconds % 0x10000000000000000))
  | stageFailed pipeline step position errorKind =>
    [("pipeline", .text pipeline), ("step", .text (stepName step)), ("position", .count position),
      ("error_kind", .text errorKind)]
  | stageObserved position stage valueKind valueSize =>
    [("position", .count position), ("stage", .text stage), ("value_kind", .text valueKind),
      ("value_size", .count valueSize)]
  | templateRegistered kind name total =>
    [("kind", .text kind), ("name", .text name), ("total", .count total)]
  | templateOverwritten kind name => [("kind", .text kind), ("name", .text name)]
  | cookbookLoaded origin stepCount pipelineCount =>
    [("source", .text origin), ("step_count", .count stepCount),
      ("pipeline_count", .count pipelineCount)]

/-- The span that a message opens; `spanName` tells spans of one kind apart. -/
def span (message : Message) (spanName : String) : Span :=
  let «open» (name : String) (fields : List (String × FieldValue)) : Span :=
    ⟨name, message.level, ("span_name", .text spanName) :: fields⟩
  match message with
  | runStarted pipeline stageCount _ | runCompleted pipeline stageCount _ _ =>
    «open» "pipeline" [("pipeline", .text pipeline), ("stage_count", .count stageCount)]
  | stageFailed pipeline _ position _ =>
    «open» "stage" [("pipeline", .text pipeline), ("position", .count position)]
  | stageObserved position stage _ _ =>
    «open» "stage" [("position", .count position), ("stage", .text stage)]
  | templateRegistered kind name _ | templateOverwritten kind name =>
    «open» "registry" [("kind", .text kind), ("name", .text name)]
  | cookbookLoaded origin _ _ => «open» "cookbook" [("source", .text origin)]

end Message

end Pipework
