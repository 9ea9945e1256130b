import Pipework.CommandLine
import Pipework.Proofs.Pipeline.Fold

set_option autoImplicit false

/-! # Runs with a trace

A trace changes nothing about a run but its notes (`Command.execute_traced`). `Tells` says what the
notes are, going by what the stages do with values (`EndsShowing`) and not by any log. -/

namespace Pipework

/-! ## What is reported by default -/

/-- No message is as important as an error, so where only errors are reported nothing is. -/
theorem Log.messages_reported_error (log : Log) : (log.reported (some .error)).messages = [] := by
  have hquiet (message : Message) : message.level.passes (some .error) = false := by
    cases message <;> rfl
  simp only [Log.messages, Log.reported, List.filterMap_map, List.filterMap_eq_nil_iff,
    List.mem_filter]
  intro record hrecord
  obtain ⟨spans, entry⟩ := record
  cases entry with
  | opened span => rfl
  | message message => simp [Record.level?, hquiet] at hrecord
  | observed observation => rfl

/-! ## What a command tells -/

namespace Command

/-- The command to run a pipeline comes to a report without notes, and a trace of it tells these
    notes. -/
inductive Tells (read : FileReader) (source : RandomSource) (word name input : String) :
    Report → List Note → Prop
  /-- The cookbook does not load. -/
  | notOpened {failure : Failure} (hopen : openCookbook read word = .error failure) :
      Tells read source word name input (.ofFailure failure) []
  /-- The cookbook has no such pipeline. -/
  | notFound {cookbook : Cookbook} {e : NotFound} (hopen : openCookbook read word = .ok cookbook)
      (hget : cookbook.pipelines.get name = .error e) :
      Tells read source word name input (.ofFailure (.ofNotFound cookbook e)) []
  /-- All stages succeed. -/
  | completed {cookbook : Cookbook} {pipeline : Pipeline Transform} {seen : List Observation}
      {value : Value} (hopen : openCookbook read word = .ok cookbook)
      (hget : cookbook.pipelines.get name = .ok pipeline)
      (hends : EndsShowing 0 pipeline.stages ⟨.text input, source⟩ seen (.ok value)) :
      Tells read source word name input ⟨[value.render], [], none⟩
        (.started name pipeline.size :: seen.map .stage ++ [.completed])
  /-- A stage fails, and those before it are shown. -/
  | failed {cookbook : Cookbook} {pipeline : Pipeline Transform} {seen : List Observation}
      {e : RunError} (hopen : openCookbook read word = .ok cookbook)
      (hget : cookbook.pipelines.get name = .ok pipeline)
      (hends : EndsShowing 0 pipeline.stages ⟨.text input, source⟩ seen (.error e)) :
      Tells read source word name input ⟨[], [], some (.ofRunError e)⟩
        (.started name pipeline.size :: seen.map .stage)

section

variable {read : FileReader} {source : RandomSource} {word name input : String} {quiet : Report}
  {notes : List Note}

theorem Tells.notes_eq_nil (h : Tells read source word name input quiet notes) :
    quiet.notes = [] := by
  cases h <;> rfl

/-- The first note is told as soon as there is something to run. -/
theorem Tells.started_mem_iff (h : Tells read source word name input quiet notes) :
    (∃ stageCount, .started name stageCount ∈ notes) ↔
      ∃ cookbook pipeline, openCookbook read word = .ok cookbook ∧
        cookbook.pipelines.get name = .ok pipeline := by
  cases h with
  | notOpened hopen => simp [hopen]
  | notFound hopen hget => simp [hopen, hget]
  | completed hopen hget hends => simp [hopen, hget]
  | failed hopen hget hends => simp [hopen, hget]

/-- The last note is told if the run comes to an end without failure. -/
theorem Tells.completed_mem_iff (h : Tells read source word name input quiet notes) :
    .completed ∈ notes ↔ quiet.failure = none := by
  cases h <;> simp [Report.ofFailure]

end

/-- A trace makes no difference to a report but its notes. -/
theorem execute_run_tells (read : FileReader) (source : RandomSource) (word name input : String) :
    let quiet := (Command.run false word name input).execute read source
    let told := (Command.run true word name input).execute read source
    Tells read source word name input quiet told.notes ∧ told = { quiet with notes := told.notes } := by
  intro quiet told
  cases hopen : openCookbook read word with
  | error failure =>
      have hquiet : quiet = .ofFailure failure := by simp only [quiet, execute, hopen]
      have htold : told = .ofFailure failure := by simp only [told, execute, hopen]
      rw [hquiet, htold]
      exact ⟨.notOpened hopen, rfl⟩
  | ok cookbook =>
      cases hget : cookbook.pipelines.get name with
      | error e =>
          have hquiet : quiet = .ofFailure (.ofNotFound cookbook e) := by
            simp only [quiet, execute, hopen, hget]
          have htold : told = .ofFailure (.ofNotFound cookbook e) := by
            simp only [told, execute, hopen, hget]
          rw [hquiet, htold]
          exact ⟨.notFound hopen hget, rfl⟩
      | ok pipeline =>
          have hends := pipeline.runObserved_endsShowing source (.text input)
          have hquiet : quiet = reportRun false name pipeline (pipeline.run source (.text input)) :=
            by simp [quiet, execute, hopen, hget]
          have htold : told =
              reportRun true name pipeline (pipeline.runObserved source (.text input)) := by
            simp [told, execute, hopen, hget]
          rw [hquiet, htold]
          unfold reportRun
          rw [Pipeline.result_run]
          cases hresult : (pipeline.runObserved source (.text input)).result with
          | ok value => exact ⟨.completed hopen hget (hresult ▸ hends), rfl⟩
          | error e => exact ⟨.failed hopen hget (hresult ▸ hends), rfl⟩

theorem ofArguments_of_ne {word : String} (hlist : word ≠ "--list") (htrace : word ≠ "--trace")
    (rest : List String) : ofArguments (word :: rest) = ofWords false (word :: rest) := by
  unfold ofArguments
  split
  · next h => exact absurd (List.cons.inj h).1 hlist
  · next h => exact absurd (List.cons.inj h).1 htrace
  · rfl

/-- **A trace only adds notes.** With `--trace` and without, the same command needs the same file
    and comes to the same exit code, output and failure. The diagnostics are the notes in front of
    those of the plain run: nothing if the cookbook does not load or has no such pipeline, else a
    first line, one for each stage that succeeds, and a last one if all of them do (`Tells`). Where
    only errors are reported, logs add nothing to them. -/
theorem execute_traced (read : FileReader) (source : RandomSource) {word : String}
    (hlist : word ≠ "--list") (htrace : word ≠ "--trace") (name input : String) :
    let plain := ofArguments [word, name, input]
    let traced := ofArguments ["--trace", word, name, input]
    let quiet := plain.execute read source
    let told := traced.execute read source
    traced.path? = plain.path? ∧
    told.code = quiet.code ∧ told.output = quiet.output ∧ told.failure = quiet.failure ∧
    (∀ elapsed elapsed', told.diagnostics elapsed =
      told.notes.map (Note.text elapsed) ++ quiet.diagnostics elapsed') ∧
    Tells read source word name input quiet told.notes ∧
    ((∃ stageCount, .started name stageCount ∈ told.notes) ↔
      ∃ cookbook pipeline, openCookbook read word = .ok cookbook ∧
        cookbook.pipelines.get name = .ok pipeline) ∧
    (.completed ∈ told.notes ↔ quiet.failure = none) ∧
    ∀ log : Log, (log.reported (some .error)).messages = [] := by
  intro plain traced quiet told
  have hplain : plain = .run false word name input := ofArguments_of_ne hlist htrace _
  have htraced : traced = .run true word name input := rfl
  obtain ⟨htells, hsame⟩ : Tells read source word name input quiet told.notes ∧
      told = { quiet with notes := told.notes } := by
    simp only [quiet, told, hplain, htraced]
    exact execute_run_tells read source word name input
  have houtput : told.output = quiet.output := by rw [hsame]
  have hfailure : told.failure = quiet.failure := by rw [hsame]
  refine ⟨?_, ?_, houtput, hfailure, ?_, htells, htells.started_mem_iff, htells.completed_mem_iff,
    Log.messages_reported_error⟩
  · rw [hplain, htraced]
    rfl
  · rw [Report.code, Report.code, hfailure]
  · intro elapsed elapsed'
    rw [Report.diagnostics, Report.diagnostics, hfailure, htells.notes_eq_nil, List.map_nil,
      List.nil_append]

/-- A pipeline of the catalogue with two stages. -/
theorem execute_traced_urlencoded :
    let read : FileReader := fun _ => .error .notFound
    let source : RandomSource := .ofSeed []
    let quiet := (ofArguments [catalogueFlag, "urlencoded", "a?"]).execute read source
    let told := (ofArguments ["--trace", catalogueFlag, "urlencoded", "a?"]).execute read source
    (catalogueFlag ≠ "--list" ∧ catalogueFlag ≠ "--trace") ∧
      (told.output = quiet.output ∧ quiet.output = ["a%3F"]) ∧
      told.diagnostics "2ms" =
        ["Tracing 'urlencoded' (2 stages):", "  [0] Step<numbers_to_str> -> a? (text)",
          "  [1] Step<urlencode> -> a%3F (text)", "Completed in 2ms"] := by
  intro read source quiet told
  have hlist : catalogueFlag ≠ "--list" := by decide
  have htrace : catalogueFlag ≠ "--trace" := by decide
  obtain ⟨-, -, houtput, -, hdiagnostics, -⟩ :=
    execute_traced read source hlist htrace "urlencoded" "a?"
  refine ⟨⟨hlist, htrace⟩, ⟨houtput, ?_⟩, ?_⟩
  · decide +kernel
  · rw [hdiagnostics "2ms" "1ms"]
    decide +kernel

end Command

end Pipework
