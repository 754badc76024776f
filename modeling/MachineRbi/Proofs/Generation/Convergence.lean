import Mathlib.Control.Monad.Basic
import MachineRbi.Proofs.Generation.Composition

/-!
# Runs converge

A run that completes leaves every file as it is to be, unless two models share one: each file reads
back as the text that is made for its model, a check finds nothing stale, and another run writes
nothing.
-/

namespace MachineRbi.Job

variable {job : Job} {manifest : Manifest} {workspace : Workspace} {registry : Registry}
  {report : Report}

section

variable [Stack]

/-- If all files are up to date a run succeeds, leaves them alone and finds every model that it
processes unchanged. -/
theorem run_of_upToDate (job : Job) (hmanifest : registry.manifest workspace = .ok manifest)
    (hfresh : ∀ modelId ∈ job.processedIds manifest, job.UpToDate manifest workspace modelId) :
    (job.run registry workspace).workspace = workspace ∧
      ∃ report, (job.run registry workspace).result = .ok report ∧
        report.outcomes.map (fun outcome => (outcome.modelId, outcome.status)) =
          manifest.modelIds.map fun modelId => (modelId, job.idleStatus manifest modelId) := by
  obtain ⟨hkept, outcomes, hresult, hstatuses⟩ :=
    visitAll_of_upToDate (fun _ => id) fun modelId hmem hprocessed =>
      hfresh modelId (List.mem_filter.mpr ⟨hmem, hprocessed⟩)
  exact ⟨(run_workspace hmanifest).trans hkept, ⟨outcomes⟩,
    (run_result_eq_ok_iff hmanifest).mpr hresult, hstatuses⟩

omit [Stack] in
/-- The outcomes of a run that finds every file up to date have no other statuses than these. -/
theorem status_of_idle {report : Report}
    (h : report.outcomes.map (fun outcome => (outcome.modelId, outcome.status)) =
      manifest.modelIds.map fun modelId => (modelId, job.idleStatus manifest modelId))
    {outcome : Outcome} (hmem : outcome ∈ report.outcomes) :
    outcome.status = job.idleStatus manifest outcome.modelId := by
  have hpair := List.mem_map_of_mem
    (f := fun outcome : Outcome => (outcome.modelId, outcome.status)) hmem
  rw [h] at hpair
  obtain ⟨modelId, -, heq⟩ := List.mem_map.mp hpair
  obtain ⟨rfl, hstatus⟩ := Prod.mk.inj heq
  exact hstatus.symm

omit [Stack] in
/-- A model whose file needs no change is neither written nor stale. -/
theorem idleStatus_cases (job : Job) (manifest : Manifest) (modelId : WideText) :
    job.idleStatus manifest modelId = .unchanged ∨
      job.idleStatus manifest modelId = .skipped := by
  unfold idleStatus
  split
  · exact .inl rfl
  · exact .inr rfl

/-- A run that completes leaves every file up to date if no two models share one. -/
theorem upToDate_of_run (hmanifest : registry.manifest workspace = .ok manifest)
    (hrun : (job.generating.run registry workspace).result = .ok report)
    (hapart : job.TargetsApart manifest workspace)
    (hsigil : '\r' ∉ job.emitter.sigil.toList) (hcommand : '\r' ∉ job.emitter.command.toList)
    (htypes : job.types = job.emitter.types) :
    ∀ modelId ∈ job.processedIds manifest,
      job.UpToDate manifest (job.generating.run registry workspace).workspace modelId := by
  have hstored :=
    stored_of_visitAll job.generating rfl hapart ((run_result_eq_ok_iff hmanifest).mp hrun)
  intro modelId hmem
  obtain ⟨hlisted, hprocessed⟩ := List.mem_filter.mp hmem
  rw [run_workspace hmanifest]
  obtain ⟨set, text, hcompose, hread⟩ := hstored modelId hlisted hprocessed
  -- Without carriage returns no line end changes when the text is read back.
  have hclean := return_not_mem_compose hsigil hcommand htypes hcompose
  rw [Text.unified_of_not_mem hclean] at hread
  exact ⟨set, text, hcompose, hread⟩

/-- After a run that completes and whose models have files of their own, every file reads back as
the text that is made for its model, a check finds all of them unchanged, and another run writes
nothing and leaves all files as they are. -/
theorem run_converges (hmanifest : registry.manifest workspace = .ok manifest)
    (hrun : (job.generating.run registry workspace).result = .ok report)
    (hapart : job.TargetsApart manifest workspace)
    (hsigil : '\r' ∉ job.emitter.sigil.toList) (hcommand : '\r' ∉ job.emitter.command.toList)
    (htypes : job.types = job.emitter.types) :
    let after := (job.generating.run registry workspace).workspace
    let loaded := registry.afterQuery workspace
    (∀ modelId ∈ job.processedIds manifest, ∃ set text,
      manifest.inspect job.types modelId = .ok set ∧ job.emitter.emit set = .ok text ∧
        after.readText (job.targetPath modelId) = .ok text) ∧
    (∃ checked, (job.checking.run loaded after).result = .ok checked ∧
      checked.outcomes.map (·.modelId) = manifest.modelIds ∧
      (∀ outcome ∈ checked.outcomes, outcome.modelId ∈ job.processedIds manifest →
        outcome.status = .unchanged) ∧
      checked.isStale = false) ∧
    (∃ again, (job.generating.run loaded after).result = .ok again ∧
      again.withStatus .written = [] ∧
      (job.generating.run loaded after).workspace = after) := by
  intro after loaded
  have hloaded : loaded.manifest after = .ok manifest := manifest_afterQuery hmanifest after
  have hfresh := upToDate_of_run hmanifest hrun hapart hsigil hcommand htypes
  refine ⟨?_, ?_, ?_⟩
  · intro modelId hmem
    obtain ⟨set, text, hcompose, hread⟩ := hfresh modelId hmem
    obtain ⟨hinspect, hemit⟩ := compose_eq_ok_iff.mp hcompose
    exact ⟨set, text, hinspect, hemit, hread⟩
  · obtain ⟨-, checked, hresult, hstatuses⟩ :=
      run_of_upToDate job.checking hloaded hfresh
    refine ⟨checked, hresult, ?_, ?_, ?_⟩
    · simpa [Function.comp_def] using congrArg (List.map Prod.fst) hstatuses
    · intro outcome hmem hprocessed
      rw [status_of_idle hstatuses hmem]
      exact if_pos (List.mem_filter.mp hprocessed).2
    · have hstale : checked.withStatus .stale = [] := by
        refine Report.withStatus_eq_nil_iff.mpr fun outcome hmem => ?_
        rw [status_of_idle hstatuses hmem]
        rcases idleStatus_cases job.checking manifest outcome.modelId with h | h <;> simp [h]
      simp [Report.isStale, hstale]
  · obtain ⟨hkept, again, hresult, hstatuses⟩ :=
      run_of_upToDate job.generating hloaded hfresh
    refine ⟨again, hresult, Report.withStatus_eq_nil_iff.mpr fun outcome hmem => ?_, hkept⟩
    rw [status_of_idle hstatuses hmem]
    rcases idleStatus_cases job.generating manifest outcome.modelId with h | h <;> simp [h]

end

open scoped Stack

/-- A run over the lamp and the door in an empty file tree converges. -/
theorem run_converges_lampAndDoor :
    let job : Job := { emitter := {}, outputDir := "sorbet/rbi", excluded := [] }
    let registry : Registry := ⟨"models.yml", some lampAndDoor⟩
    let run := job.generating.run registry ⟨.empty, []⟩
    ∃ again, (job.generating.run registry run.workspace).result = .ok again ∧
      again.withStatus .written = [] ∧
      (job.generating.run registry run.workspace).workspace = run.workspace := by
  intro job registry run
  obtain ⟨report, hrun⟩ : ∃ report, run.result = .ok report := by
    refine ⟨⟨[⟨"Lamp", .written, some "sorbet/rbi/lamp.rbi", 5, ""⟩,
      ⟨"House::Door", .written, some "sorbet/rbi/house/door.rbi", 0, ""⟩]⟩, ?_⟩
    decide +kernel
  have hapart : job.TargetsApart lampAndDoor ⟨.empty, []⟩ := by
    unfold TargetsApart
    decide +kernel
  exact (run_converges rfl hrun hapart (by decide) (by decide) rfl).2.2

end MachineRbi.Job
