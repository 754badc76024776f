import MachineRbi.Proofs.CommandLine.Streams
import MachineRbi.Proofs.Generation.Composition
import MachineRbi.Proofs.Generation.Outcome

/-!
# The exit code of `generate`

A session of `generate` that does not crash ends with 2 if the tool has something to object to in
the manifest or in the declarations of a model, and otherwise its run completes. Then a check ends
with 1 if some file is missing or different, and names each of these files in the error stream;
everything else ends with 0 (`run_generate_ending`).
-/

namespace MachineRbi

/-- The tool has something to object to: in the manifest as a whole, or in the state machines or the
declarations of a model that the job does not pass over. -/
def Job.Objects [Stack] (job : Job) (registry : Registry) (workspace : Workspace) : Prop :=
  (∃ failure, registry.manifest workspace = .error failure ∧ failure.IsOwn) ∨
    ∃ manifest, registry.manifest workspace = .ok manifest ∧
      ∃ modelId ∈ job.processedIds manifest, ∃ failure,
        job.compose manifest modelId = .error failure ∧ failure.IsOwn

namespace CommandLine

variable {workspace : Workspace} {job : Job} {registry : Registry} {report : Report}
  {failure : Failure} {code : Nat}

/-! ## Runs -/

section

variable [Stack]

/-- A run that fails with the tool's own failure has something to object to. -/
theorem objects_of_run (h : (job.run registry workspace).result = .error failure)
    (hown : failure.IsOwn) : job.Objects registry workspace := by
  cases hmanifest : registry.manifest workspace with
  | error found =>
      simp only [Job.run, hmanifest] at h
      cases h
      exact .inl ⟨failure, hmanifest, hown⟩
  | ok manifest =>
      have hvisits := (Job.run_result_eq_error_iff hmanifest).mp h
      rcases Job.failure_of_visitAll (fun _ => id) hvisits with
        ⟨modelId, hmem, hprocessed, hcompose⟩ | ⟨fault, rfl⟩
      · exact .inr ⟨manifest, hmanifest, modelId, List.mem_filter.mpr ⟨hmem, hprocessed⟩, failure,
          hcompose, hown⟩
      · exact (Failure.not_isOwn_file fault hown).elim

/-- A run that completes has read its manifest. -/
theorem manifest_of_run (h : (job.run registry workspace).result = .ok report) :
    ∃ manifest, registry.manifest workspace = .ok manifest := by
  cases hmanifest : registry.manifest workspace with
  | error failure => simp [Job.run, hmanifest] at h
  | ok manifest => exact ⟨manifest, rfl⟩

/-- A run that completes has nothing to object to. -/
theorem not_objects_of_run (h : (job.run registry workspace).result = .ok report) :
    ¬ job.Objects registry workspace := by
  rintro (⟨failure, hmanifest, -⟩ | ⟨manifest, hmanifest, modelId, hmem, failure, hcompose, -⟩)
  · simp [Job.run, hmanifest] at h
  · have hvisits := (Job.run_result_eq_ok_iff hmanifest).mp h
    obtain ⟨hlisted, hprocessed⟩ := List.mem_filter.mp hmem
    obtain ⟨set, text, hok⟩ := Job.compose_of_visitAll hvisits modelId hlisted hprocessed
    rw [hcompose] at hok
    cases hok

/-- What a check that completes finds decides between the codes 0 and 1. -/
theorem verdict_of_check (hcheck : job.check = true) {manifest : Manifest}
    (hmanifest : registry.manifest workspace = .ok manifest)
    (hreport : (job.run registry workspace).result = .ok report)
    (hcode : code = if report.isStale then 1 else 0) :
    (code = 0 ∨ code = 1) ∧
      (code = 0 ↔ ∀ modelId ∈ job.processedIds manifest,
        job.UpToDate manifest workspace modelId) ∧
      (code = 1 ↔ ∃ modelId ∈ job.processedIds manifest,
        job.OutOfDate manifest workspace modelId) := by
  have hvisits := (Job.run_result_eq_ok_iff hmanifest).mp hreport
  rw [← Job.isStale_eq_false_of_check hcheck hvisits, ← Job.isStale_of_check hcheck hvisits, hcode]
  cases report.isStale <;> simp

end

/-! ## Sessions -/

namespace Session

variable {services : Services} {console : Console} {mode : LogMode}
  {manifest? outputDir? noColor? : Option String} {check verbose : Bool} {words : List String}

section

variable [Stack]

/-- A session of `generate` exits with 2 for the tool's own failure, and after a run that completes
with 1 or 0. -/
theorem generate_ending
    (h : (generate services console mode workspace manifest? outputDir? check).ending =
      .exit code) :
    let run := (jobFor services outputDir? check).run (registryFor services manifest?) workspace
    (∃ failure, run.result = .error failure ∧ failure.IsOwn ∧ code = 2) ∨
      ∃ report, run.result = .ok report ∧ code = if report.isStale then 1 else 0 := by
  intro run
  unfold generate at h
  dsimp only at h
  split at h
  next failure hfailure =>
    refine .inl ⟨failure, hfailure, ?_⟩
    unfold showFailure at h
    cases hmessage : failure.message? with
    | none =>
        rw [hmessage] at h
        cases h
    | some message =>
        rw [hmessage] at h
        cases h
        exact ⟨⟨message, hmessage⟩, rfl⟩
  next report hreport =>
    cases h
    exact .inr ⟨report, hreport, rfl⟩

/-- A session of `generate` that exits does so with 2 exactly if the tool has something to object
to. -/
theorem code_eq_two_iff
    (h : (generate services console mode workspace manifest? outputDir? check).ending =
      .exit code) :
    code = 2 ↔
      (jobFor services outputDir? check).Objects (registryFor services manifest?) workspace := by
  constructor
  · rintro rfl
    obtain ⟨failure, hfailure, hown, -⟩ | ⟨report, -, hcode⟩ := generate_ending h
    · exact objects_of_run hfailure hown
    · split at hcode <;> cases hcode
  · intro hobjects
    obtain ⟨failure, -, -, hcode⟩ | ⟨report, hreport, -⟩ := generate_ending h
    · exact hcode
    · exact (not_objects_of_run hreport hobjects).elim

/-- If the tool has nothing to object to, a session of `generate` that exits has completed its
run. -/
theorem report_of_generate
    (h : (generate services console mode workspace manifest? outputDir? check).ending = .exit code)
    (hclear : ¬ (jobFor services outputDir? check).Objects (registryFor services manifest?)
      workspace) :
    ∃ manifest report, (registryFor services manifest?).manifest workspace = .ok manifest ∧
      ((jobFor services outputDir? check).run (registryFor services manifest?)
        workspace).result = .ok report ∧
      code = if report.isStale then 1 else 0 := by
  obtain ⟨failure, hfailure, hown, -⟩ | ⟨report, hreport, hcode⟩ := generate_ending h
  · exact (hclear (objects_of_run hfailure hown)).elim
  · obtain ⟨manifest, hmanifest⟩ := manifest_of_run hreport
    exact ⟨manifest, report, hmanifest, hreport, hcode⟩

/-- A session that exits with a code has found its settings. -/
theorem run_generate (hwords : Request.parse words =
      .perform (.generate manifest? outputDir? check verbose))
    (hending : (run workspace noColor? sink words).ending = .exit code) :
    ∃ services records, Services.start workspace = (.ok services, records) ∧
      run workspace noColor? sink words =
        (generate services (Services.console noColor?) (.choose records verbose) workspace manifest?
          outputDir? check).after (joinOutputs (records.map LogMode.early.show)) := by
  cases hstart : Services.start workspace with
  | mk found records =>
      cases found with
      | error failure =>
          simp only [run, hstart] at hending
          cases hending
      | ok services => exact ⟨services, records, rfl, run_eq_execute hstart hwords⟩

/-- After a run that completes a session of `generate` has written its notes to the error stream. -/
theorem generate_err
    (h : ((jobFor services outputDir? check).run (registryFor services manifest?)
      workspace).result = .ok report) :
    (generate services console mode workspace manifest? outputDir? check).output.err =
      String.join (((jobFor services outputDir? check).run (registryFor services manifest?)
        workspace).notes.map fun note => (showNote console mode note).err) := by
  unfold generate
  dsimp only
  rw [h]
  simp [Function.comp_def]

omit [Stack] in
/-- The warning about a file that is out of date, and where it goes. -/
theorem outOfDateNote_err (modelId : WideText) :
    (showNote console mode (job.outOfDateNote modelId)).err =
      console.line ("WARNING: Stale: " ++ (job.targetPath modelId).text ++ " (" ++
        modelId.shown ++ ")") := by
  refine congrArg console.line (String.toList_inj.mp ?_)
  simp [Console.label]

omit [Stack] in
/-- A line of the program without escapes is the text with the project before it. -/
theorem console_line {text : String} (h : '\x1b' ∉ text.toList) :
    (Services.console noColor?).line text = "[AASM-RBI] " ++ text ++ "\n" := by
  have hproject : '\x1b' ∉ "AASM-RBI".toList := by decide
  exact Console.line_of_not_mem hproject h

/-- The warning about a file that is out of date stands as it is, unless its path has escapes. -/
theorem staleLine_eq {manifest : Manifest} {modelId : WideText}
    (h : modelId ∈ job.staleIds manifest workspace)
    (hpath : '\x1b' ∉ (job.targetPath modelId).text.toList) :
    (Services.console noColor?).line ("WARNING: Stale: " ++ (job.targetPath modelId).text ++ " (" ++
        modelId.shown ++ ")") =
      "[AASM-RBI] WARNING: Stale: " ++ (job.targetPath modelId).text ++ " (" ++ modelId.shown ++
        ")\n" := by
  -- The id has a text, so it is the path of a constant, which has no escapes.
  obtain ⟨set, text, hcompose, -⟩ := of_decide_eq_true (List.mem_filter.mp h).2
  have hconstant := Job.isConstantPath_of_compose hcompose
  have hshown : '\x1b' ∉ modelId.shown.toList := by
    rw [Rbi.shown_of_isConstantPath hconstant]
    exact Rbi.not_mem_of_isConstantPath hconstant (by decide) (by decide)
  rw [console_line (by simp [hpath, hshown])]
  apply String.toList_inj.mp
  simp

omit [Stack] in
/-- The error with the number of files that are out of date stands as it is. -/
theorem countLine_eq (count : Nat) :
    (Services.console noColor?).line
        ("ERROR: " ++ toString count ++ " RBI file(s) out of date. Rerun generate.") =
      "[AASM-RBI] ERROR: " ++ toString count ++
        " RBI file(s) out of date. Rerun generate.\n" := by
  have hdigits : '\x1b' ∉ (toString count).toList := by
    intro hmem
    rw [Nat.toString_eq_repr, Nat.toList_repr] at hmem
    exact absurd (Nat.isDigit_of_mem_toDigits (by decide) (by decide) hmem) (by decide)
  rw [console_line (by simpa using hdigits)]
  apply String.toList_inj.mp
  simp

/-- The notes of a check that finds files out of date write those about the models, a warning for
each of these files and an error with their number to the error stream. -/
theorem notes_err_of_stale (hcheck : job.check = true) {manifest : Manifest}
    (hmanifest : registry.manifest workspace = .ok manifest)
    (hreport : (job.run registry workspace).result = .ok report)
    (hstale : report.isStale = true) :
    String.join ((job.run registry workspace).notes.map fun note =>
        (showNote console mode note).err) =
      String.join (manifest.modelIds.map fun modelId =>
        (showNote console mode (job.visitNote manifest modelId)).err) ++
      String.join ((job.staleIds manifest workspace).map fun modelId =>
        console.line ("WARNING: Stale: " ++ (job.targetPath modelId).text ++ " (" ++
          modelId.shown ++ ")")) ++
      console.line ("ERROR: " ++ toString (job.staleIds manifest workspace).length ++
        " RBI file(s) out of date. Rerun generate.") := by
  have hvisits := (Job.run_result_eq_ok_iff hmanifest).mp hreport
  have hopening : (showNote console mode job.opening).err = "" := console.notice_step_err _
  have herror : ∀ text, (showNote console mode (.notice .error text)).err =
      console.line ("ERROR: " ++ text) := fun _ => rfl
  rw [Job.run_notes hmanifest hreport, Job.closing_of_check hcheck hvisits hstale]
  simp [Function.comp_def, hopening, outOfDateNote_err, herror, String.append_assoc]

/-- A session of `generate` that exits has a code that says what came of it. The code is 2 exactly
if the tool has something to object to, and otherwise the run completes and reports every model in
order. A check then ends with 0 exactly if all files are up to date, and with 1 exactly if some file
is missing or different; in that case the error stream has, behind the notes about the settings and
the models, a warning for each of these files in order, as it is unless its path has escapes, and an
error with their number. Without a check nothing is stale and the code is 0. -/
theorem run_generate_ending
    (hwords : Request.parse words = .perform (.generate manifest? outputDir? check verbose))
    (hending : (run workspace noColor? sink words).ending = .exit code) :
    ∃ services records, Services.start workspace = (.ok services, records) ∧
      let console := Services.console noColor?
      let mode := LogMode.choose records verbose
      let job := jobFor services outputDir? check
      let registry := registryFor services manifest?
      (code = 2 ↔ job.Objects registry workspace) ∧
      (¬ job.Objects registry workspace → ∃ manifest report,
        registry.manifest workspace = .ok manifest ∧
        (job.run registry workspace).result = .ok report ∧
        report.outcomes.map (·.modelId) = manifest.modelIds ∧
        (check = false → code = 0 ∧ report.withStatus .stale = []) ∧
        (check = true →
          (code = 0 ∨ code = 1) ∧
          (code = 0 ↔ ∀ modelId ∈ job.processedIds manifest,
            job.UpToDate manifest workspace modelId) ∧
          (code = 1 ↔ ∃ modelId ∈ job.processedIds manifest,
            job.OutOfDate manifest workspace modelId) ∧
          (code = 1 → (run workspace noColor? sink words).output.err =
            String.join (records.map fun record => (LogMode.early.show record).err) ++
            String.join (manifest.modelIds.map fun modelId =>
              (showNote console mode (job.visitNote manifest modelId)).err) ++
            String.join ((job.staleIds manifest workspace).map fun modelId =>
              console.line ("WARNING: Stale: " ++ (job.targetPath modelId).text ++ " (" ++
                modelId.shown ++ ")")) ++
            ("[AASM-RBI] ERROR: " ++ toString (job.staleIds manifest workspace).length ++
              " RBI file(s) out of date. Rerun generate.\n")) ∧
          ∀ modelId ∈ job.staleIds manifest workspace,
            '\x1b' ∉ (job.targetPath modelId).text.toList →
              console.line ("WARNING: Stale: " ++ (job.targetPath modelId).text ++ " (" ++
                  modelId.shown ++ ")") =
                "[AASM-RBI] WARNING: Stale: " ++ (job.targetPath modelId).text ++ " (" ++
                  modelId.shown ++ ")\n")) := by
  obtain ⟨services, records, hstart, hsession⟩ := run_generate hwords hending
  refine ⟨services, records, hstart, ?_⟩
  intro console mode job registry
  rw [hsession] at hending
  refine ⟨code_eq_two_iff hending, fun hclear => ?_⟩
  obtain ⟨manifest, report, hmanifest, hreport, hcode⟩ := report_of_generate hending hclear
  have hvisits := (Job.run_result_eq_ok_iff hmanifest).mp hreport
  refine ⟨manifest, report, hmanifest, hreport, Job.modelIds_of_visitAll (fun _ => id) hvisits,
    ?_, ?_⟩
  · rintro rfl
    have hfresh : ∀ outcome ∈ report.outcomes, outcome.status ≠ .stale :=
      Job.status_of_visitAll (fun _ => id) hvisits
    rw [hcode, Report.isStale_eq_false_iff.mpr hfresh]
    exact ⟨rfl, Report.withStatus_eq_nil_iff.mpr hfresh⟩
  · rintro rfl
    obtain ⟨hrange, hzero, hone⟩ := verdict_of_check rfl hmanifest hreport hcode
    refine ⟨hrange, hzero, hone, fun hstale => ?_, fun modelId hmem => staleLine_eq hmem⟩
    have hstale : report.isStale = true :=
      (Job.isStale_of_check rfl hvisits).mpr (hone.mp hstale)
    rw [hsession, after, Output.append_err, generate_err hreport,
      notes_err_of_stale rfl hmanifest hreport hstale, joinOutputs_err, List.map_map,
      countLine_eq]
    simp only [Function.comp_def, String.append_assoc]
    rfl

end

open scoped Stack

/-- A check of a lamp that has no file exits with 1, because the manifest and the lamp are accepted
and the file is missing. -/
theorem run_generate_ending_lamp :
    let manifestFile : Entry := .file "models:\n  Lamp:\n    state_machines:\n".toUTF8
    let workspace : Workspace :=
      ⟨FileTree.empty.place ["sorbet", "aasm_manifest.yml"] manifestFile, []⟩
    (run workspace none .bytes ["generate", "--check"]).ending = .exit 1 ∧
      ∃ services records, Services.start workspace = (.ok services, records) ∧
        let job := jobFor services none true
        let registry := registryFor services none
        ¬ job.Objects registry workspace ∧
        ∃ manifest, registry.manifest workspace = .ok manifest ∧
          ∃ modelId ∈ job.processedIds manifest, job.OutOfDate manifest workspace modelId := by
  intro manifestFile workspace
  have hwords : Request.parse ["generate", "--check"] =
      .perform (.generate none none true false) := by decide +kernel
  have hending : (run workspace none .bytes ["generate", "--check"]).ending = .exit 1 := by
    decide +kernel
  refine ⟨hending, ?_⟩
  obtain ⟨services, records, hstart, hobjects, hclear⟩ := run_generate_ending hwords hending
  have haccepted : ¬ (jobFor services none true).Objects (registryFor services none) workspace :=
    fun h => absurd (hobjects.mpr h) (by decide)
  obtain ⟨manifest, report, hmanifest, -, -, -, hcheck⟩ := hclear haccepted
  exact ⟨services, records, hstart, haccepted, manifest, hmanifest, (hcheck rfl).2.2.1.mp rfl⟩

end Session

end CommandLine

end MachineRbi
