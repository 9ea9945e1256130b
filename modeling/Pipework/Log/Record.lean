import Pipework.Log.Message
import Pipework.Pipeline.Basic

set_option autoImplicit false

/-! # Records of a run

A run leaves a list of records in the order in which things happened: spans that were opened,
messages, and values that observers get to see. Each record names the spans it lies in, outermost
first. -/

namespace Pipework

/-- A value that a stage produced. -/
structure Observation where
  /-- The position of the stage. -/
  index : Nat
  stage : Stage Transform
  value : Value

/-- The message that tracing reports for an observation. -/
def Observation.message (o : Observation) : Message :=
  .stageObserved o.index o.stage.label o.value.kind.name o.value.size

/-- What a record is about. -/
inductive Entry
  | opened (span : Span)
  | message (message : Message)
  | observed (observation : Observation)

/-- Something that happened during a run. -/
structure Record where
  /-- The spans around it, outermost first. -/
  spans : List Span
  entry : Entry

/-- Records in order. -/
abbrev Log := List Record

namespace Record

/-- A record outside any span. -/
def ofMessage (message : Message) : Record := ⟨[], .message message⟩

/-- The record with one more span around it. -/
def within (span : Span) (record : Record) : Record :=
  { record with spans := span :: record.spans }

/-- The observation of a record that holds one. -/
def observation? (record : Record) : Option Observation :=
  match record.entry with
  | .observed observation => some observation
  | _ => none

/-- The message of a record that holds one. -/
def message? (record : Record) : Option Message :=
  match record.entry with
  | .message message => some message
  | _ => none

/-- The record as tracing reports it: an observation becomes a message. -/
def traced (record : Record) : Record :=
  match record.entry with
  | .observed observation => { record with entry := .message observation.message }
  | _ => record

/-- The level of a record; an observation by itself is not reported. -/
def level? (record : Record) : Option Level :=
  match record.entry with
  | .opened span => some span.level
  | .message message => some message.level
  | .observed _ => none

end Record

namespace Log

/-- The observations, in order. -/
def observations (log : Log) : List Observation := log.filterMap Record.observation?

/-- The messages, in order. -/
def messages (log : Log) : List Message := log.filterMap Record.message?

/-- The log without observations. -/
def unobserved (log : Log) : Log := log.filter fun record => record.observation?.isNone

/-- The log as tracing reports it. -/
def traced (log : Log) : Log := log.map Record.traced

/-- What is reported from `threshold` on, spans below it left out. -/
def reported (threshold : Option Level) (log : Log) : Log :=
  (log.filter fun record => record.level?.any (·.passes threshold)).map fun record =>
    { record with spans := record.spans.filter (·.level.passes threshold) }

end Log

end Pipework
