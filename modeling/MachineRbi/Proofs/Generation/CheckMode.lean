import Mathlib.Control.Monad.Basic
import MachineRbi.Proofs.Files.Closed
import MachineRbi.Proofs.Generation.Composition
import MachineRbi.Proofs.Generation.Outcome
import MachineRbi.Proofs.Generation.Target

/-!
# Checks foretell runs

A check looks at every file as it stands before the run, and a run at the files that its own visits
have left. A check finds nothing stale exactly if a run writes nothing, because either way all files
are up to date. If no two models share a file the two agree on every model, because a visit changes
no other file and opens no way to one.
-/

namespace MachineRbi

/-- The outcome of a model after its stale file has been written. -/
def Outcome.carriedOut (outcome : Outcome) : Outcome :=
  if outcome.status = .stale then { outcome with status := .written } else outcome

namespace Job

open Workspace (Frame)

variable {job : Job} {manifest : Manifest} {base workspace : Workspace} {modelId : WideText}
  {modelIds : List WideText} {outcome checked generated : Outcome} {outcomes : List Outcome}

/-! ## Nothing to do -/

section

variable [Stack]

/-- A check succeeds with nothing stale exactly if all files are up to date. -/
theorem checking_idle_iff :
    (∃ outcomes, (job.checking.visitAll manifest workspace manifest.modelIds).result =
        .ok outcomes ∧ ∀ outcome ∈ outcomes, outcome.status ≠ .stale) ↔
      ∀ modelId ∈ manifest.modelIds, job.isProcessed manifest modelId = true →
        job.UpToDate manifest workspace modelId := by
  refine Iff.trans ?_ (visitAll_idle_iff job.checking fun _ => id)
  refine exists_congr fun outcomes => and_congr_right fun h => forall₂_congr fun outcome hmem => ?_
  exact (and_iff_left (status_of_visitAll (fun _ => id) h outcome hmem)).symm

/-- A run that may write succeeds without writing exactly if all files are up to date. -/
theorem generating_idle_iff :
    (∃ outcomes, (job.generating.visitAll manifest workspace manifest.modelIds).result =
        .ok outcomes ∧ ∀ outcome ∈ outcomes, outcome.status ≠ .written) ↔
      ∀ modelId ∈ manifest.modelIds, job.isProcessed manifest modelId = true →
        job.UpToDate manifest workspace modelId := by
  refine Iff.trans ?_ (visitAll_idle_iff job.generating fun _ => id)
  refine exists_congr fun outcomes => and_congr_right fun h => forall₂_congr fun outcome hmem => ?_
  exact (and_iff_right (status_of_visitAll (fun _ => id) h outcome hmem)).symm

/-! ## Agreement -/

/-- A check and a run report the same of a model if its file reads the same before both, but that
the one finds stale what the other writes. -/
theorem visit_carriedOut (hmem : modelId ∈ manifest.modelIds)
    (hread : job.isProcessed manifest modelId = true → Rbi.isConstantPath modelId = true →
      ∀ text, workspace.readText (job.targetPath modelId) = .ok text ↔
        base.readText (job.targetPath modelId) = .ok text)
    (hchecked : (job.checking.visit manifest base modelId).result = .ok checked)
    (hgenerated : (job.generating.visit manifest workspace modelId).result = .ok generated) :
    checked.carriedOut = generated := by
  cases hcase : job.isProcessed manifest modelId with
  | false =>
      have hchecking : (job.checking.visit manifest base modelId).result =
          .ok ⟨modelId, .skipped, none, 0, job.skipReason modelId⟩ :=
        visit_result_of_not_isProcessed hmem hcase
      have hgenerating : (job.generating.visit manifest workspace modelId).result =
          .ok ⟨modelId, .skipped, none, 0, job.skipReason modelId⟩ :=
        visit_result_of_not_isProcessed hmem hcase
      rw [hchecking, Except.ok.injEq] at hchecked
      rw [hgenerating, Except.ok.injEq] at hgenerated
      rw [← hchecked, ← hgenerated]
      rfl
  | true =>
      have hchecking : job.checking.visit manifest base modelId =
          job.checking.process manifest base modelId := visit_of_isProcessed hcase
      have hgenerating : job.generating.visit manifest workspace modelId =
          job.generating.process manifest workspace modelId := visit_of_isProcessed hcase
      rw [hchecking] at hchecked
      rw [hgenerating] at hgenerated
      -- Both make the same text, and it stands in the file before both or before neither.
      obtain ⟨set, text, hcompose, hchecked⟩ := process_cases hchecked
      obtain ⟨set', text', hcompose', hgenerated⟩ := process_cases hgenerated
      obtain ⟨rfl, rfl⟩ := Prod.mk.inj (Except.ok.inj (hcompose.symm.trans hcompose'))
      have hsame := hread hcase (isConstantPath_of_compose hcompose) text
      rcases hchecked with ⟨hbase, -, rfl⟩ | ⟨hbase, -, -, rfl⟩ | ⟨-, hcheck, -⟩
      · rcases hgenerated with ⟨-, -, rfl⟩ | ⟨-, hcheck, -⟩ | ⟨hdiffers, -⟩
        · rfl
        · cases hcheck
        · exact (hdiffers (hsame.mpr hbase)).elim
      · rcases hgenerated with ⟨hread, -⟩ | ⟨-, hcheck, -⟩ | ⟨-, -, -, rfl⟩
        · exact (hbase (hsame.mp hread)).elim
        · cases hcheck
        · rfl
      · cases hcheck

/-- A check in a closed tree and a run from what work on other files has left agree if no two models
share a file and no file is reached by leading up. -/
theorem visitAll_carriedOut {directories files : Location → Prop} {checked generated : List Outcome}
    (hlisted : ∀ modelId ∈ modelIds, modelId ∈ manifest.modelIds)
    (hclosed : base.tree.Closed) (houtput : ".." ∉ (Path.ofText job.outputDir).names)
    (hapart : (modelIds.filter (job.isProcessed manifest)).Pairwise fun a b =>
      base.destination (job.targetPath a) ≠ base.destination (job.targetPath b))
    (hframe : Frame directories files base workspace)
    (hfree : ∀ modelId ∈ modelIds, job.isProcessed manifest modelId = true →
      ¬ files (base.destination (job.targetPath modelId)))
    (hchecked : (job.checking.visitAll manifest base modelIds).result = .ok checked)
    (hgenerated : (job.generating.visitAll manifest workspace modelIds).result = .ok generated) :
    checked.map Outcome.carriedOut = generated := by
  induction modelIds generalizing directories files workspace checked generated with
  | nil =>
      cases hchecked
      cases hgenerated
      rfl
  | cons modelId rest ih =>
      obtain ⟨outcome, others, hfirst, hothers, rfl, -⟩ := visitAll_cons_eq_ok hchecked
      obtain ⟨outcome', others', hfirst', hothers', rfl, -⟩ := visitAll_cons_eq_ok hgenerated
      rw [visit_workspace_of_check rfl hfirst] at hothers
      have hsame : outcome.carriedOut = outcome' := by
        refine visit_carriedOut (hlisted modelId List.mem_cons_self) ?_ hfirst hfirst'
        intro hprocessed hpath text
        exact hframe.readText_iff hclosed (up_not_mem_targetPath hpath houtput).1
          (hfree modelId List.mem_cons_self hprocessed)
      -- The files of the models to come are not among those changed so far, nor this one.
      have hvisit := job.generating.visit_frame manifest workspace modelId
      rw [List.map_cons, hsame]
      refine congrArg _ (ih (fun other hmem => hlisted other (List.mem_cons_of_mem _ hmem)) ?_
        (hframe.union hvisit) ?_ hothers hothers')
      · exact hapart.sublist ((List.sublist_cons_self modelId rest).filter _)
      · rintro other hmem hprocessed (hchanged | ⟨hfirstProcessed, hat⟩)
        · exact hfree other (List.mem_cons_of_mem _ hmem) hprocessed hchanged
        · change job.isProcessed manifest modelId = true at hfirstProcessed
          rw [List.filter_cons_of_pos hfirstProcessed, List.pairwise_cons] at hapart
          refine hapart.1 other (List.mem_filter.mpr ⟨hmem, hprocessed⟩) ?_
          rw [hat, hframe.destination_eq]
          rfl

/-- A check succeeds with nothing stale exactly if a run from the same files succeeds without
writing. If both succeed in a closed tree, no two models share a file and the output directory does
not lead up, they agree on every model, but that the one finds stale what the other writes. -/
theorem check_foretells_run (job : Job) (registry : Registry) (workspace : Workspace) :
    ((∃ report, (job.checking.run registry workspace).result = .ok report ∧
        report.isStale = false) ↔
      ∃ report, (job.generating.run registry workspace).result = .ok report ∧
        report.withStatus .written = []) ∧
    ∀ manifest checked generated, registry.manifest workspace = .ok manifest →
      (job.checking.run registry workspace).result = .ok checked →
      (job.generating.run registry workspace).result = .ok generated →
      workspace.tree.Closed → ".." ∉ (Path.ofText job.outputDir).names →
      job.TargetsApart manifest workspace →
      checked.outcomes.map Outcome.carriedOut = generated.outcomes := by
  constructor
  · simp only [Report.isStale_eq_false_iff, Report.withStatus_eq_nil_iff]
    cases hmanifest : registry.manifest workspace with
    | error failure => simp [run, hmanifest]
    | ok manifest =>
        simp only [run_result_eq_ok_iff hmanifest]
        have hreports : ∀ p : List Outcome → Prop,
            (∃ report : Report, p report.outcomes) ↔ ∃ outcomes, p outcomes := by
          intro p
          constructor
          · rintro ⟨report, h⟩
            exact ⟨report.outcomes, h⟩
          · rintro ⟨outcomes, h⟩
            exact ⟨⟨outcomes⟩, h⟩
        -- What both sides come to is that all files are up to date.
        exact (hreports _).trans (checking_idle_iff.trans
          (generating_idle_iff.symm.trans (hreports _).symm))
  · intro manifest checked generated hmanifest hchecked hgenerated hclosed houtput hapart
    -- Nothing has changed yet when the run starts.
    have hnothing : Frame (fun _ => False) (fun _ => False) workspace workspace := .refl workspace
    exact visitAll_carriedOut (fun _ => id) hclosed houtput hapart hnothing (fun _ _ _ => id)
      ((run_result_eq_ok_iff hmanifest).mp hchecked)
      ((run_result_eq_ok_iff hmanifest).mp hgenerated)

end

open scoped Stack

/-- A check over the lamp and the door beside an old file of the lamp foretells the run. -/
theorem check_foretells_run_lampAndDoor :
    let job : Job := { emitter := {}, outputDir := "sorbet/rbi", excluded := [] }
    let registry : Registry := ⟨"models.yml", some lampAndDoor⟩
    let old : Entry := .file "class Lamp\nend\n".toUTF8
    let workspace : Workspace := ⟨FileTree.empty.place ["sorbet", "rbi", "lamp.rbi"] old, []⟩
    ∃ checked generated, (job.checking.run registry workspace).result = .ok checked ∧
      (job.generating.run registry workspace).result = .ok generated ∧
      checked.outcomes.map Outcome.carriedOut = generated.outcomes := by
  intro job registry old workspace
  let outcomes (status : Status) : List Outcome :=
    [⟨"Lamp", status, some "sorbet/rbi/lamp.rbi", 5, ""⟩,
      ⟨"House::Door", status, some "sorbet/rbi/house/door.rbi", 0, ""⟩]
  have hchecked : (job.checking.run registry workspace).result = .ok ⟨outcomes .stale⟩ := by
    decide +kernel
  have hgenerated : (job.generating.run registry workspace).result = .ok ⟨outcomes .written⟩ := by
    decide +kernel
  have hclosed : workspace.tree.Closed :=
    FileTree.closed_empty.place (by decide) (by decide +kernel) old
  have hapart : job.TargetsApart lampAndDoor workspace := by
    unfold TargetsApart
    decide +kernel
  exact ⟨_, _, hchecked, hgenerated, (check_foretells_run job registry workspace).2 lampAndDoor _ _
    rfl hchecked hgenerated hclosed (by decide +kernel) hapart⟩

end Job

end MachineRbi
