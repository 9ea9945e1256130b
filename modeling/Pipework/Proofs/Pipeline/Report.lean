import Pipework.Proofs.Pipeline.Course

set_option autoImplicit false

/-! # The log of a run

The log of a run is its course, written down (`Pipeline.run_log_follows_course`). A failure is told
once on every level between the stage that it comes from and the outermost pipeline; `LeadsInto`
names the stages on this way (`Waypoint`), and what a run tells of failures is such a way, from its
end to its beginning (`runStages_failsAlong`). -/

namespace Pipework

/-! ## Failures on the way out -/

/-- The messages that report failures, in order. -/
def Log.failures (log : Log) : List Message := log.messages.filter Message.isFailure

@[simp] theorem Log.failures_nil : Log.failures [] = [] := rfl

@[simp] theorem Log.failures_opened_cons (spans : List Span) (span : Span) (log : Log) :
    Log.failures (⟨spans, .opened span⟩ :: log) = log.failures :=
  rfl

@[simp] theorem Log.failures_observed_cons (spans : List Span) (seen : Observation) (log : Log) :
    Log.failures (⟨spans, .observed seen⟩ :: log) = log.failures :=
  rfl

@[simp] theorem Log.failures_message_cons (spans : List Span) (message : Message) (log : Log) :
    Log.failures (⟨spans, .message message⟩ :: log) =
      if message.isFailure then message :: log.failures else log.failures :=
  List.filter_cons

@[simp] theorem Log.failures_append (first second : Log) :
    Log.failures (first ++ second) = first.failures ++ second.failures := by
  simp only [Log.failures, Log.messages, List.filterMap_append, List.filter_append]

@[simp] theorem Log.failures_within (span : Span) (log : Log) :
    Log.failures (log.map (·.within span)) = log.failures := by
  simp only [Log.failures, Log.messages, List.filterMap_map]
  rfl

@[simp] theorem Log.failures_unobserved (log : Log) : log.unobserved.failures = log.failures := by
  induction log with
  | nil => rfl
  | cons record rest ih =>
      obtain ⟨spans, entry⟩ := record
      cases entry <;> simp [ih]

/-- A run around stages reports no failure but theirs. -/
@[simp] theorem Pipeline.failures_inSpan (pipeline : Pipeline Transform) (spanName : String)
    (value : Value) (body : Outcome RunError) :
    (pipeline.inSpan spanName value body).log.failures = body.log.failures := by
  obtain ⟨result, source, log⟩ := body
  simp only [Pipeline.inSpan, Log.failures_opened_cons, Log.failures_within]
  cases result <;> simp [Record.ofMessage, Message.isFailure]

/-- A stage on the way to a failure, with its place. -/
structure Waypoint where
  /-- The label of the pipeline that it stands in. -/
  label : String
  position : Nat
  stage : Stage Transform

/-- The message that a stage failed with an error of this kind. -/
def Waypoint.failure (point : Waypoint) (errorKind : String) : Message :=
  .stageFailed point.label point.stage.name? point.position errorKind

/-- A run of stages that stand from `position` on in a pipeline called `label` comes to the stage
    `last`, which runs no pipeline and fails with `error`. It stands behind stages that succeed, and
    inside of the pipelines that the stages `outer` run, the outermost first. -/
inductive LeadsInto : String → Nat → List (Stage Transform) → Midway → TransformError →
    List Waypoint → Waypoint → Prop
  | here {label : String} {position : Nat} {stage : Stage Transform}
      {rest : List (Stage Transform)} {state : Midway} {error : TransformError}
      (hnested : stage.nested? = none) (herror : (stage.apply state).result = .error error) :
      LeadsInto label position (stage :: rest) state error [] ⟨label, position, stage⟩
  | inside {label : String} {position : Nat} {stage : Stage Transform}
      {rest : List (Stage Transform)} {state : Midway} {error : TransformError}
      {inner : Pipeline Transform} {outer : List Waypoint} {last : Waypoint}
      (hnested : stage.nested? = some inner)
      (hinner : LeadsInto inner.label 0 inner.stages state error outer last) :
      LeadsInto label position (stage :: rest) state error (⟨label, position, stage⟩ :: outer) last
  | behind {label : String} {position : Nat} {stage : Stage Transform}
      {rest : List (Stage Transform)} {state : Midway} {value : Value} {error : TransformError}
      {outer : List Waypoint} {last : Waypoint} (hok : (stage.apply state).result = .ok value)
      (h : LeadsInto label (position + 1) rest ⟨value, (stage.apply state).source⟩ error outer
        last) :
      LeadsInto label position (stage :: rest) state error outer last

/-- The failure of a run that came to `last` through `outer`. -/
def RunError.through (error : TransformError) (last : Waypoint) : List Waypoint → RunError
  | [] => ⟨last.stage.name?, some last.position, error⟩
  | point :: outer =>
    ⟨point.stage.name?, some point.position, .pipeline (through error last outer)⟩

/-- The messages about a failure, innermost first. -/
def failuresThrough (error : TransformError) (last : Waypoint) (outer : List Waypoint) :
    List Message :=
  last.failure error.kind :: outer.reverse.map (·.failure "pipeline")

/-- Either nothing failed and nothing is told of a failure, or what is told is the way to the stage
    that failed. -/
inductive FailsAlong (label : String) (position : Nat) (stages : List (Stage Transform))
    (state : Midway) : Outcome RunError → Prop
  | ok {outcome : Outcome RunError} {output : Value} (hresult : outcome.result = .ok output)
      (hfailures : outcome.log.failures = []) : FailsAlong label position stages state outcome
  | error {outcome : Outcome RunError} {error : TransformError} {outer : List Waypoint}
      {last : Waypoint} (hleads : LeadsInto label position stages state error outer last)
      (hresult : outcome.result = .error (RunError.through error last outer))
      (hfailures : outcome.log.failures = failuresThrough error last outer) :
      FailsAlong label position stages state outcome

/-- The same for a single stage, which reports nothing of its own: a failure that comes from further
    down has been reported on its way. -/
inductive StageFailsAlong (stage : Stage Transform) (state : Midway) :
    Outcome TransformError → Prop
  | ok {outcome : Outcome TransformError} {output : Value} (hresult : outcome.result = .ok output)
      (hfailures : outcome.log.failures = []) : StageFailsAlong stage state outcome
  | here {outcome : Outcome TransformError} {error : TransformError}
      (hnested : stage.nested? = none) (hresult : outcome.result = .error error)
      (hfailures : outcome.log.failures = []) : StageFailsAlong stage state outcome
  | inside {outcome : Outcome TransformError} {error : TransformError} {inner : Pipeline Transform}
      {outer : List Waypoint} {last : Waypoint} (hnested : stage.nested? = some inner)
      (hleads : LeadsInto inner.label 0 inner.stages state error outer last)
      (hresult : outcome.result = .error (.pipeline (RunError.through error last outer)))
      (hfailures : outcome.log.failures = failuresThrough error last outer) :
      StageFailsAlong stage state outcome

theorem stageFailsAlong_of_none {stage : Stage Transform} (h : stage.nested? = none)
    (state : Midway) : StageFailsAlong stage state (stage.apply state) := by
  have hlog : (stage.apply state).log.failures = [] := by
    rw [Stage.log_of_nested?_eq_none h, Log.failures_nil]
  cases hresult : (stage.apply state).result with
  | ok output => exact .ok hresult hlog
  | error error => exact .here h hresult hlog

theorem stageFailsAlong_of_some {stage : Stage Transform} {inner : Pipeline Transform}
    (h : stage.nested? = some inner) {state : Midway}
    (hinner : FailsAlong inner.label 0 inner.stages state
      (runStages inner.label 0 inner.stages state.source state.value)) :
    StageFailsAlong stage state (stage.apply state) := by
  have happly := Stage.apply_of_nested?_eq_some h state
  have hlog : (stage.apply state).log.failures =
      (runStages inner.label 0 inner.stages state.source state.value).log.failures := by
    rw [happly]
    exact (Log.failures_unobserved _).trans (Pipeline.failures_inSpan ..)
  have hresult : (stage.apply state).result =
      (runStages inner.label 0 inner.stages state.source state.value).result.mapError
        .pipeline := by
    rw [happly]
    rfl
  cases hinner with
  | ok hok hfailures => exact .ok (hresult.trans (by rw [hok]; rfl)) (hlog.trans hfailures)
  | error hleads herror hfailures =>
      exact .inside h hleads (hresult.trans (by rw [herror]; rfl)) (hlog.trans hfailures)

theorem failsAlong_cons {stage : Stage Transform} {rest : List (Stage Transform)} {label : String}
    {position : Nat} {state : Midway} (hstage : StageFailsAlong stage state (stage.apply state))
    (hrest : ∀ state : Midway, FailsAlong label (position + 1) rest state
      (runStages label (position + 1) rest state.source state.value)) :
    FailsAlong label position (stage :: rest) state
      (runStages label position (stage :: rest) state.source state.value) := by
  cases hstage with
  | @ok value hok hquiet =>
      rw [runStages_cons_of_ok hok]
      cases hrest ⟨value, (stage.apply state).source⟩ with
      | ok hresult hfailures =>
          refine .ok hresult ?_
          simp [Outcome.mapLog, hquiet, hfailures]
      | error hleads hresult hfailures =>
          refine .error (.behind hok hleads) hresult ?_
          simp [Outcome.mapLog, hquiet, hfailures]
  | here hnested herror hquiet =>
      rw [runStages_cons_of_error herror]
      refine .error (.here hnested herror) rfl ?_
      simp [hquiet, Record.ofMessage, Message.isFailure, Pipeline.failure, failuresThrough,
        Waypoint.failure]
  | inside hnested hleads herror hfailures =>
      rw [runStages_cons_of_error herror]
      refine .error (.inside hnested hleads) rfl ?_
      simp [hfailures, Record.ofMessage, Message.isFailure, Pipeline.failure, failuresThrough,
        Waypoint.failure, TransformError.kind]

/-- **The invariant of failures**, by induction on the stages that are left and on those of the
    pipelines that they run. -/
theorem runStages_failsAlong (stages : List (Stage Transform)) (label : String) (position : Nat)
    (state : Midway) :
    FailsAlong label position stages state
      (runStages label position stages state.source state.value) := by
  induction stages using nested_induction generalizing label position state with
  | nil => exact .ok rfl rfl
  | leaf stage rest hnested ih =>
      exact failsAlong_cons (stageFailsAlong_of_none hnested state) (ih label (position + 1))
  | nested stage inner rest hnested ihInner ihRest =>
      exact failsAlong_cons (stageFailsAlong_of_some hnested (ihInner inner.label 0 state))
        (ihRest label (position + 1))

/-! ## Whole runs -/

/-- How the run of a course ends. -/
def Course.ending : Course → Ending
  | ⟨_, _, _, _, ending⟩ => ending

/-- **The log of a run is its course, written down.** With everything enabled, a run reports the
    records of the course that it takes and nothing else, and an observed run differs in the name of
    the outermost span alone. The course ends as the result says. There are as many starts as ends
    of both sorts together. A run without failure reports none. The failure of any other run is
    that of a stage that runs no pipeline, and it is reported once on each level, innermost first:
    with its own kind at this stage, and as a failed pipeline at every stage further out, each of
    which runs the pipeline with the next one. -/
theorem Pipeline.run_log_follows_course (pipeline : Pipeline Transform) (source : RandomSource)
    (value : Value) :
    let result := (pipeline.run source value).result
    let told := (pipeline.run source value).log.reported (some .trace)
    ∃ course, Takes pipeline ⟨value, source⟩ course ∧ told = course.records plainSpan [] ∧
      (pipeline.runObserved source value).log.reported (some .trace) =
        course.records observedSpan [] ∧
      course.ending.Reports result ∧
      told.count Message.isStart =
        told.count Message.isCompletion + told.count Message.isFailure ∧
      (∀ output, result = .ok output → told.failures = []) ∧
      (∀ failure, result = .error failure → ∃ error outer last,
        LeadsInto pipeline.label 0 pipeline.stages ⟨value, source⟩ error outer last ∧
        failure = RunError.through error last outer ∧
        told.failures = last.failure error.kind :: outer.reverse.map (·.failure "pipeline") ∧
        ∀ point ∈ outer, ∀ transform, point.stage = .bare transform →
          (point.failure "pipeline").fields =
            [("pipeline", .text point.label), ("step", .text "bare transform"),
              ("position", .count point.position), ("error_kind", .text "pipeline")]) := by
  intro result told
  obtain ⟨inner, ending, htells⟩ :=
    runStages_tells pipeline.stages pipeline.label 0 ⟨value, source⟩
  have hrecords (spanName : String) :
      (pipeline.execute spanName source value).log.reported (some .trace) =
        Course.records spanName [] ⟨pipeline.label, pipeline.size, value.kind, inner, ending⟩ := by
    rw [Log.reported_trace]
    exact unobserved_inSpan pipeline spanName value htells.ends htells.log
  have htold : told = Course.records plainSpan []
      ⟨pipeline.label, pipeline.size, value.kind, inner, ending⟩ := by
    rw [← hrecords plainSpan, Log.reported_trace]
    exact (Log.reported_trace _).trans (Log.unobserved_unobserved _)
  have hfailures : told.failures =
      (runStages pipeline.label 0 pipeline.stages source value).log.failures := by
    have hplain : told.failures = (pipeline.execute plainSpan source value).log.failures := by
      rw [htold, ← hrecords plainSpan, Log.reported_trace, Log.failures_unobserved]
    exact hplain.trans (failures_inSpan ..)
  refine ⟨_, .run htells.takes, htold, hrecords observedSpan, htells.ends, ?_, ?_, ?_⟩
  · rw [htold]
    exact Course.count_start ..
  · intro output houtput
    cases runStages_failsAlong pipeline.stages pipeline.label 0 ⟨value, source⟩ with
    | ok hresult hquiet => exact hfailures.trans hquiet
    | error hleads herror hways => cases houtput.symm.trans herror
  · intro failure hfailure
    cases runStages_failsAlong pipeline.stages pipeline.label 0 ⟨value, source⟩ with
    | ok hresult hquiet => cases hfailure.symm.trans hresult
    | error hleads herror hways =>
        refine ⟨_, _, _, hleads, Except.error.inj (hfailure.symm.trans herror),
          hfailures.trans hways, ?_⟩
        intro point _ transform hbare
        simp only [Waypoint.failure, hbare]
        rfl

end Pipework
