import Pipework.Proofs.Pipeline.Splice

set_option autoImplicit false

/-! # Courses of runs

A `Course` is what the log tells of a run: the label of the pipeline and the number of its stages,
the kind of the input, the courses of the pipelines that its stages run, and how the run ended. It
holds no value. `Takes` says which course a run takes, going by what its stages do with values and
not by any log; `Course.records` writes a course down, every record with the spans around it. What
the stages of a run leave in the log is the courses that they take (`runStages_tells`), and every
start in it has its end (`Course.count_start`). -/

namespace Pipework

/-! ## Courses -/

/-- How a run ends. -/
inductive Ending
  /-- With a value of this kind. -/
  | completed (output : Kind)
  | failed (step : Option String) (position : Nat) (errorKind : String)
deriving DecidableEq

/-- What is told of a run. -/
inductive Course
  | mk (label : String) (stageCount : Nat) (input : Kind) (inner : List Course) (ending : Ending)

/-- The last message of a run. -/
def Ending.message (label : String) (stageCount : Nat) : Ending → Message
  | completed output => .runCompleted label stageCount output.name none
  | failed step position errorKind => .stageFailed label step position errorKind

mutual

/-- The records of a course inside of the spans `around`: a span is opened, and in it stand the
    start, the inner courses and the end. -/
def Course.records (spanName : String) (around : List Span) : Course → Log
  | ⟨label, stageCount, input, inner, ending⟩ =>
    let started : Message := .runStarted label stageCount input.name
    let inside := around ++ [started.span spanName]
    ⟨around, .opened (started.span spanName)⟩ :: ⟨inside, .message started⟩ ::
      recordsOfAll inside inner ++ [⟨inside, .message (ending.message label stageCount)⟩]

/-- The records of courses one after the other. -/
def recordsOfAll (around : List Span) : List Course → Log
  | [] => []
  | course :: rest => course.records Pipeline.plainSpan around ++ recordsOfAll around rest

end

mutual

/-- A run of the pipeline takes this course. -/
inductive Takes : Pipeline Transform → Midway → Course → Prop
  | run {pipeline : Pipeline Transform} {state : Midway} {inner : List Course} {ending : Ending}
      (h : StagesTake 0 pipeline.stages state inner ending) :
      Takes pipeline state ⟨pipeline.label, pipeline.size, state.value.kind, inner, ending⟩

/-- Stages from `position` on take the courses `inner` and end the run with `ending`. Each stage
    that is reached contributes, the one that fails included, and no other. -/
inductive StagesTake : Nat → List (Stage Transform) → Midway → List Course → Ending → Prop
  | done {position : Nat} {state : Midway} :
      StagesTake position [] state [] (.completed state.value.kind)
  | next {position : Nat} {stage : Stage Transform} {rest : List (Stage Transform)}
      {state : Midway} {value : Value} {own more : List Course} {ending : Ending}
      (hok : (stage.apply state).result = .ok value) (hown : StageTakes stage state own)
      (hrest : StagesTake (position + 1) rest ⟨value, (stage.apply state).source⟩ more ending) :
      StagesTake position (stage :: rest) state (own ++ more) ending
  | failed {position : Nat} {stage : Stage Transform} {rest : List (Stage Transform)}
      {state : Midway} {error : TransformError} {own : List Course}
      (herror : (stage.apply state).result = .error error) (hown : StageTakes stage state own) :
      StagesTake position (stage :: rest) state own (.failed stage.name? position error.kind)

/-- A single stage takes a course of its own if it runs a pipeline. -/
inductive StageTakes : Stage Transform → Midway → List Course → Prop
  | quiet {stage : Stage Transform} {state : Midway} (h : stage.nested? = none) :
      StageTakes stage state []
  | nested {stage : Stage Transform} {state : Midway} {inner : Pipeline Transform} {course : Course}
      (h : stage.nested? = some inner) (hcourse : Takes inner state course) :
      StageTakes stage state [course]

end

/-- The ending that goes with a result. -/
inductive Ending.Reports : Ending → Except RunError Value → Prop
  | completed (output : Value) : Reports (.completed output.kind) (.ok output)
  | failed (step : Option String) (position : Nat) (source : TransformError) :
      Reports (.failed step position source.kind) (.error ⟨step, some position, source⟩)

/-! ## Logs without observations -/

theorem Log.unobserved_append (first second : Log) :
    Log.unobserved (first ++ second) = first.unobserved ++ second.unobserved :=
  List.filter_append ..

@[simp] theorem Log.unobserved_opened_cons (spans : List Span) (span : Span) (log : Log) :
    Log.unobserved (⟨spans, .opened span⟩ :: log) = ⟨spans, .opened span⟩ :: log.unobserved :=
  rfl

@[simp] theorem Log.unobserved_message_cons (spans : List Span) (message : Message) (log : Log) :
    Log.unobserved (⟨spans, .message message⟩ :: log) =
      ⟨spans, .message message⟩ :: log.unobserved :=
  rfl

@[simp] theorem Log.unobserved_observed_cons (spans : List Span) (seen : Observation) (log : Log) :
    Log.unobserved (⟨spans, .observed seen⟩ :: log) = log.unobserved :=
  rfl

theorem Log.unobserved_unobserved (log : Log) : log.unobserved.unobserved = log.unobserved :=
  List.filter_filter.trans (by simp only [Bool.and_self]; rfl)

theorem Log.unobserved_within (span : Span) (log : Log) :
    Log.unobserved (log.map (·.within span)) = log.unobserved.map (·.within span) := by
  simp only [Log.unobserved, List.filter_map]
  rfl

/-- With everything enabled, all but the observations is reported. -/
theorem Log.reported_trace (log : Log) : log.reported (some .trace) = log.unobserved := by
  have hpasses (level : Level) : level.passes (some .trace) = true := by cases level <;> rfl
  have hlevel (record : Record) :
      (record.level?.any (·.passes (some .trace))) = record.observation?.isNone := by
    obtain ⟨spans, entry⟩ := record
    cases entry <;> simp [Record.level?, Record.observation?, hpasses]
  simp only [Log.reported, Log.unobserved, hlevel]
  simp only [hpasses, List.filter_true, List.map_id']

/-! ## Spans around a course -/

mutual

theorem Course.records_within (span : Span) (spanName : String) (around : List Span)
    (course : Course) :
    (course.records spanName around).map (·.within span) =
      course.records spanName (span :: around) := by
  obtain ⟨label, stageCount, input, inner, ending⟩ := course
  simp only [Course.records, List.map_cons, List.map_append, List.map_nil,
    recordsOfAll_within span _ inner]
  rfl

theorem recordsOfAll_within (span : Span) (around : List Span) (courses : List Course) :
    (recordsOfAll around courses).map (·.within span) = recordsOfAll (span :: around) courses := by
  cases courses with
  | nil => rfl
  | cons course rest =>
      simp only [recordsOfAll, List.map_append, Course.records_within span _ _ course,
        recordsOfAll_within span around rest]

end

theorem recordsOfAll_append (around : List Span) (first second : List Course) :
    recordsOfAll around (first ++ second) =
      recordsOfAll around first ++ recordsOfAll around second := by
  induction first with
  | nil => rfl
  | cons course rest ih => simp only [List.cons_append, recordsOfAll, ih, List.append_assoc]

/-! ## The course of a run -/

/-- What the stages report when a run ends: only a failure. -/
def Ending.failure (label : String) : Ending → Log
  | completed _ => []
  | failed step position errorKind => [.ofMessage (.stageFailed label step position errorKind)]

/-- What the run around the stages reports when it ends: only an end without failure. -/
def Ending.success (label : String) (stageCount : Nat) : Ending → Log
  | completed output => [.ofMessage (.runCompleted label stageCount output.name none)]
  | failed .. => []

/-- The two report one message between them. -/
theorem Ending.failure_append_success (label : String) (stageCount : Nat) (ending : Ending) :
    ending.failure label ++ (ending.success label stageCount).unobserved =
      [.ofMessage (ending.message label stageCount)] := by
  cases ending <;> rfl

theorem Ending.Reports.log_inSpan {ending : Ending} {body : Outcome RunError}
    (h : ending.Reports body.result) (pipeline : Pipeline Transform) (spanName : String)
    (value : Value) :
    let started : Message := .runStarted pipeline.label pipeline.size value.kind.name
    (pipeline.inSpan spanName value body).log =
      ⟨[], .opened (started.span spanName)⟩ ::
        (.ofMessage started :: body.log ++ ending.success pipeline.label pipeline.size).map
          (·.within (started.span spanName)) := by
  obtain ⟨result, source, log⟩ := body
  cases h <;> rfl

/-- A run is told by its course if its stages are. -/
theorem unobserved_inSpan (pipeline : Pipeline Transform) (spanName : String) (value : Value)
    {body : Outcome RunError} {inner : List Course} {ending : Ending}
    (hends : ending.Reports body.result)
    (hlog : body.log.unobserved = recordsOfAll [] inner ++ ending.failure pipeline.label) :
    (pipeline.inSpan spanName value body).log.unobserved =
      Course.records spanName []
        ⟨pipeline.label, pipeline.size, value.kind, inner, ending⟩ := by
  rw [hends.log_inSpan]
  simp only [Log.unobserved_opened_cons, Log.unobserved_within, List.cons_append,
    Record.ofMessage, Log.unobserved_message_cons, Log.unobserved_append, hlog, List.append_assoc,
    Ending.failure_append_success]
  simp only [List.map_cons, List.map_append, recordsOfAll_within, List.map_nil, Course.records]
  rfl

theorem Transform.log_of_pipeline?_eq_none {transform : Transform} (h : transform.pipeline? = none)
    (source : RandomSource) (value : Value) (args : Arguments) :
    (transform.apply source value args).log = [] := by
  match transform, h with
  | .builtin _, _ => rfl
  | .host _, _ => rfl

/-- A transform that is a pipeline does what its plain run does, whatever its arguments. -/
theorem Transform.apply_of_pipeline?_eq_some {transform : Transform}
    {inner : Pipeline Transform} (h : transform.pipeline? = some inner) (source : RandomSource)
    (value : Value) (args : Arguments) :
    transform.apply source value args = (inner.run source value).mapError .pipeline := by
  match transform, h with
  | .pipeline ⟨name, stages⟩, h =>
      obtain rfl := Option.some.inj h
      rfl

theorem Stage.log_of_nested?_eq_none {stage : Stage Transform} (h : stage.nested? = none)
    (state : Midway) : (stage.apply state).log = [] := by
  cases stage with
  | step s => exact Transform.log_of_pipeline?_eq_none h ..
  | bare transform => exact Transform.log_of_pipeline?_eq_none h ..

theorem Stage.apply_of_nested?_eq_some {stage : Stage Transform} {inner : Pipeline Transform}
    (h : stage.nested? = some inner) (state : Midway) :
    stage.apply state = (inner.run state.source state.value).mapError .pipeline := by
  cases stage with
  | step s => exact Transform.apply_of_pipeline?_eq_some h ..
  | bare transform => exact Transform.apply_of_pipeline?_eq_some h ..

/-- Stages from `position` on take the courses `inner` and end with `ending`, and this is what a run
    of them tells. -/
structure Tells (label : String) (position : Nat) (stages : List (Stage Transform))
    (state : Midway) (inner : List Course) (ending : Ending) : Prop where
  takes : StagesTake position stages state inner ending
  ends : ending.Reports (runStages label position stages state.source state.value).result
  log : (runStages label position stages state.source state.value).log.unobserved =
    recordsOfAll [] inner ++ ending.failure label

/-- The same for a single stage, whose own failure is told by the run that it belongs to. -/
structure StageTells (stage : Stage Transform) (state : Midway) (own : List Course) : Prop where
  takes : StageTakes stage state own
  log : (stage.apply state).log.unobserved = recordsOfAll [] own

theorem stageTells_of_none {stage : Stage Transform} (h : stage.nested? = none) (state : Midway) :
    StageTells stage state [] where
  takes := .quiet h
  log := by
    rw [Stage.log_of_nested?_eq_none h]
    rfl

theorem stageTells_of_some {stage : Stage Transform} {inner : Pipeline Transform}
    (h : stage.nested? = some inner) {state : Midway} {courses : List Course} {ending : Ending}
    (hinner : Tells inner.label 0 inner.stages state courses ending) :
    StageTells stage state
      [⟨inner.label, inner.size, state.value.kind, courses, ending⟩] where
  takes := .nested h (.run hinner.takes)
  log := by
    rw [Stage.apply_of_nested?_eq_some h state, recordsOfAll, recordsOfAll, List.append_nil,
      ← unobserved_inSpan inner Pipeline.plainSpan state.value hinner.ends hinner.log]
    exact Log.unobserved_unobserved _

theorem exists_tells_cons {stage : Stage Transform} {rest : List (Stage Transform)}
    {label : String} {position : Nat} {state : Midway} {own : List Course}
    (hown : StageTells stage state own)
    (hrest : ∀ state, ∃ inner ending, Tells label (position + 1) rest state inner ending) :
    ∃ inner ending, Tells label position (stage :: rest) state inner ending := by
  cases hresult : (stage.apply state).result with
  | error error =>
      refine ⟨own, _, .failed hresult hown.takes, ?_, ?_⟩
      · rw [runStages_cons_of_error hresult]
        exact .failed ..
      · rw [runStages_cons_of_error hresult, Log.unobserved_append, hown.log]
        rfl
  | ok value =>
      obtain ⟨more, ending, hmore⟩ := hrest ⟨value, (stage.apply state).source⟩
      refine ⟨own ++ more, ending, .next hresult hown.takes hmore.takes, ?_, ?_⟩
      · rw [runStages_cons_of_ok hresult]
        exact hmore.ends
      · rw [runStages_cons_of_ok hresult, recordsOfAll_append, List.append_assoc, ← hmore.log,
          ← hown.log]
        exact Log.unobserved_append ..

/-- **The invariant of what is told**, by induction on the stages that are left and on those of the
    pipelines that they run. -/
theorem runStages_tells (stages : List (Stage Transform)) (label : String) (position : Nat)
    (state : Midway) :
    ∃ inner ending, Tells label position stages state inner ending := by
  induction stages using nested_induction generalizing label position state with
  | nil => exact ⟨[], _, .done, .completed _, rfl⟩
  | leaf stage rest hnested ih =>
      exact exists_tells_cons (stageTells_of_none hnested state) (ih label (position + 1))
  | nested stage inner rest hnested ihInner ihRest =>
      obtain ⟨courses, ending, hinner⟩ := ihInner inner.label 0 state
      exact exists_tells_cons (stageTells_of_some hnested hinner) (ihRest label (position + 1))

/-! ## Counting messages -/

/-- The message reports that a run began. -/
def Message.isStart : Message → Bool
  | runStarted .. => true
  | _ => false

/-- The message reports that a run ended without failure. -/
def Message.isCompletion : Message → Bool
  | runCompleted .. => true
  | _ => false

/-- The message reports that a stage failed. -/
def Message.isFailure : Message → Bool
  | stageFailed .. => true
  | _ => false

/-- How many messages of a kind there are. -/
def Log.count (log : Log) (p : Message → Bool) : Nat := log.messages.countP p

@[simp] theorem Log.count_nil (p : Message → Bool) : Log.count [] p = 0 := rfl

@[simp] theorem Log.count_opened_cons (spans : List Span) (span : Span) (log : Log)
    (p : Message → Bool) : Log.count (⟨spans, .opened span⟩ :: log) p = log.count p :=
  rfl

@[simp] theorem Log.count_message_cons (spans : List Span) (message : Message) (log : Log)
    (p : Message → Bool) :
    Log.count (⟨spans, .message message⟩ :: log) p =
      log.count p + if p message then 1 else 0 :=
  List.countP_cons

@[simp] theorem Log.count_append (first second : Log) (p : Message → Bool) :
    Log.count (first ++ second) p = first.count p + second.count p := by
  simp only [Log.count, Log.messages, List.filterMap_append, List.countP_append]

theorem Ending.isCompletion_message (label : String) (stageCount : Nat) (ending : Ending) :
    (ending.message label stageCount).isStart = false ∧
      ((ending.message label stageCount).isCompletion =
        !(ending.message label stageCount).isFailure) := by
  cases ending <;> exact ⟨rfl, rfl⟩

mutual

/-- Every start of a course has its end. -/
theorem Course.count_start (spanName : String) (around : List Span) (course : Course) :
    (course.records spanName around).count Message.isStart =
      (course.records spanName around).count Message.isCompletion +
        (course.records spanName around).count Message.isFailure := by
  obtain ⟨label, stageCount, input, inner, ending⟩ := course
  obtain ⟨hstart, hend⟩ := ending.isCompletion_message label stageCount
  have hinner := recordsOfAll_count_start
    (around ++ [(Message.runStarted label stageCount input.name).span spanName]) inner
  simp only [Course.records, List.cons_append, Log.count_opened_cons, Log.count_message_cons,
    Log.count_append, Log.count_nil, hinner, hstart, hend]
  cases (ending.message label stageCount).isFailure <;>
    simp [Message.isStart, Message.isCompletion, Message.isFailure] <;> omega

theorem recordsOfAll_count_start (around : List Span) (courses : List Course) :
    (recordsOfAll around courses).count Message.isStart =
      (recordsOfAll around courses).count Message.isCompletion +
        (recordsOfAll around courses).count Message.isFailure := by
  cases courses with
  | nil => rfl
  | cons course rest =>
      have hfirst := Course.count_start Pipeline.plainSpan around course
      have hrest := recordsOfAll_count_start around rest
      simp only [recordsOfAll, Log.count_append]
      omega

end

end Pipework
