import MachineRbi.Proofs.CommandLine.Streams
import MachineRbi.Proofs.Generation.Turn

/-!
# What a session does to the files

Only `generate` without a check can change files. It does what its job does, and a job changes the
files that it rewrites and makes the directories on the way to them, even if it fails
(`run_touches`).
-/

namespace MachineRbi.CommandLine.Session

variable {workspace : Workspace} {noColor? : Option String} {sink : Sink} {words : List String}
  {manifest? outputDir? : Option String} {check verbose : Bool} {services : Services}
  {records : List LogRecord}

/-- A query leaves the files alone. -/
theorem query_workspace (console : Console) (sink : Sink) (workspace : Workspace)
    (answer : Except Failure (List WideText × Option Failure)) :
    (query console sink workspace answer).workspace = workspace := by
  unfold query
  dsimp only
  split <;> rfl

section

variable [Stack]

/-- A session of `generate` leaves the files as its job does. -/
theorem generate_workspace (services : Services) (console : Console) (mode : LogMode)
    (workspace : Workspace) (manifest? outputDir? : Option String) (check : Bool) :
    (generate services console mode workspace manifest? outputDir? check).workspace =
      ((jobFor services outputDir? check).run (registryFor services manifest?)
        workspace).workspace := by
  unfold generate
  dsimp only
  split <;> rfl

/-- A session of `generate` that has found its settings leaves the files as its job does. -/
theorem run_workspace_of_generate (hstart : Services.start workspace = (.ok services, records))
    (hwords : Request.parse words = .perform (.generate manifest? outputDir? check verbose)) :
    (run workspace noColor? sink words).workspace =
      ((jobFor services outputDir? check).run (registryFor services manifest?)
        workspace).workspace := by
  rw [run_eq_execute hstart hwords]
  exact generate_workspace ..

/-- A session leaves the files alone unless it is to generate. -/
theorem run_workspace_of_looking
    (h : ∀ manifest? outputDir? verbose,
      Request.parse words ≠ .perform (.generate manifest? outputDir? false verbose)) :
    (run workspace noColor? sink words).workspace = workspace := by
  unfold run
  dsimp only [after]
  cases (Services.start workspace).1 with
  | error failure => rfl
  | ok services =>
      dsimp only
      cases hwords : Request.parse words with
      | help => rfl
      | misuse => rfl
      | perform command =>
          cases command with
          | inspect model manifest? json verbose => exact query_workspace ..
          | models manifest? => exact query_workspace ..
          | generate manifest? outputDir? check verbose =>
              cases check with
              | false => exact (h _ _ _ hwords).elim
              | true =>
                  refine (generate_workspace ..).trans ?_
                  exact Job.run_workspace_of_check rfl _ _

/-- Whether or not it fails, a run that only looks leaves the files alone, and so does every session
but one that is to generate. That does what the run of its job does, and the run of any job deletes
nothing, changes no file but those of models that it does not pass over and whose files are out of
date when their turns come, and adds such files and directories on the way to them only. -/
theorem run_touches (job : Job) (registry : Registry) (workspace : Workspace)
    (noColor? : Option String) (sink : Sink) (words : List String) :
    (job.check = true → (job.run registry workspace).workspace = workspace) ∧
    ((∀ manifest? outputDir? verbose,
      Request.parse words ≠ .perform (.generate manifest? outputDir? false verbose)) →
      (run workspace noColor? sink words).workspace = workspace) ∧
    (∀ manifest? outputDir? check verbose services records,
      Request.parse words = .perform (.generate manifest? outputDir? check verbose) →
      Services.start workspace = (.ok services, records) →
      (run workspace noColor? sink words).workspace =
        ((jobFor services outputDir? check).run (registryFor services manifest?)
          workspace).workspace) ∧
    job.OnlyRewrites registry workspace (job.run registry workspace).workspace := by
  refine ⟨fun hcheck => Job.run_workspace_of_check hcheck registry workspace,
    run_workspace_of_looking, ?_, job.onlyRewrites_run registry workspace⟩
  intro manifest? outputDir? check verbose services records hwords hstart
  exact run_workspace_of_generate hstart hwords

end

open scoped Stack

/-- Beside an old file of the lamp, a list of the models and a check leave the files alone, and a
run writes the files of the lamp and of the door. -/
theorem run_touches_lampAndDoor :
    let job : Job := { emitter := {}, outputDir := "sorbet/rbi", excluded := [] }
    let registry : Registry := ⟨"models.yml", some Job.lampAndDoor⟩
    let old : Entry := .file "class Lamp\nend\n".toUTF8
    let workspace : Workspace := ⟨FileTree.empty.place ["sorbet", "rbi", "lamp.rbi"] old, []⟩
    (job.checking.run registry workspace).workspace = workspace ∧
      (run workspace none .bytes ["models"]).workspace = workspace ∧
      job.OnlyRewrites registry workspace (job.run registry workspace).workspace ∧
      (job.run registry workspace).workspace.tree.entry? ["sorbet", "rbi", "lamp.rbi"] ≠
        some old ∧
      (job.run registry workspace).workspace.tree.entry? ["sorbet", "rbi", "house"] =
        some .directory := by
  intro job registry old workspace
  have hlooking : ∀ manifest? outputDir? verbose,
      Request.parse ["models"] ≠ .perform (.generate manifest? outputDir? false verbose) := by
    intro manifest? outputDir? verbose hwords
    have hmodels : Request.parse ["models"] = .perform (.models none) := by decide +kernel
    rw [hmodels] at hwords
    cases hwords
  have hchecking := run_touches job.checking registry workspace none .bytes ["models"]
  have hgenerating := run_touches job registry workspace none .bytes ["models"]
  exact ⟨hchecking.1 rfl, hgenerating.2.1 hlooking, hgenerating.2.2.2, by decide +kernel,
    by decide +kernel⟩

end MachineRbi.CommandLine.Session
