import MachineRbi.Proofs.Generation.Outcome

/-!
# The turns of a run

A run comes to its models one after the other, and each finds the files that the visits before it
left (`visitAll_append`). A run that fails stops at the first visit that does (`visitAll_stops`). It
changes files only at the turn of a model that it does not pass over and whose file is out of date
then, whether or not it goes on to its end (`onlyRewrites_run`).
-/

namespace MachineRbi.Job

open Workspace (Frame)

variable {job : Job} {manifest : Manifest} {workspace found : Workspace} {path : Path}
  {text : String} {modelId : WideText} {front back modelIds : List WideText}
  {outcomes : List Outcome} {failure : Failure} {registry : Registry}

/-! ## Runs in parts -/

variable [Stack]

/-- A run over models and then others goes on in the files that the first part left. -/
theorem visitAll_append (h : (job.visitAll manifest workspace front).result = .ok outcomes)
    (back : List WideText) :
    (job.visitAll manifest workspace (front ++ back)).workspace =
        (job.visitAll manifest (job.visitAll manifest workspace front).workspace
          back).workspace ∧
      (job.visitAll manifest workspace (front ++ back)).result =
        (job.visitAll manifest (job.visitAll manifest workspace front).workspace
          back).result.map (outcomes ++ ·) := by
  induction front generalizing workspace outcomes with
  | nil =>
      cases h
      refine ⟨rfl, ?_⟩
      cases hback : (job.visitAll manifest workspace back).result <;>
        simp [visitAll, hback, Except.map]
  | cons modelId rest ih =>
      obtain ⟨outcome, others, hfirst, hothers, rfl, hafter⟩ := visitAll_cons_eq_ok h
      obtain ⟨hworkspace, hresult⟩ := ih hothers
      rw [hafter]
      simp only [List.cons_append, visitAll, hfirst]
      refine ⟨hworkspace, ?_⟩
      rw [hresult]
      cases (job.visitAll manifest (job.visitAll manifest (job.visit manifest workspace
        modelId).workspace rest).workspace back).result <;> rfl

/-- The run over these models comes to a model, and then these files are found. -/
def ComesTo (job : Job) (manifest : Manifest) (workspace : Workspace) (modelIds : List WideText)
    (modelId : WideText) (found : Workspace) : Prop :=
  ∃ front back outcomes, modelIds = front ++ modelId :: back ∧
    (job.visitAll manifest workspace front).result = .ok outcomes ∧
    (job.visitAll manifest workspace front).workspace = found

/-- A run comes first to its first model. -/
theorem comesTo_first (job : Job) (manifest : Manifest) (workspace : Workspace) :
    job.ComesTo manifest workspace (modelId :: modelIds) modelId workspace :=
  ⟨[], modelIds, [], rfl, rfl, rfl⟩

/-- After its first visit a run comes to what the run over the others comes to. -/
theorem ComesTo.cons {first : WideText} {outcome : Outcome}
    (hfirst : (job.visit manifest workspace first).result = .ok outcome)
    (h : job.ComesTo manifest (job.visit manifest workspace first).workspace modelIds modelId
      found) : job.ComesTo manifest workspace (first :: modelIds) modelId found := by
  obtain ⟨front, back, others, rfl, hothers, rfl⟩ := h
  obtain ⟨hresult, hworkspace⟩ := visitAll_cons_of_ok hfirst hothers
  exact ⟨first :: front, back, outcome :: others, rfl, hresult, hworkspace⟩

/-- A run that fails stops at a visit that fails, and leaves the files as that visit does. -/
theorem visitAll_stops (h : (job.visitAll manifest workspace modelIds).result = .error failure) :
    ∃ modelId found, job.ComesTo manifest workspace modelIds modelId found ∧
      (job.visit manifest found modelId).result = .error failure ∧
      (job.visitAll manifest workspace modelIds).workspace =
        (job.visit manifest found modelId).workspace := by
  induction modelIds generalizing workspace with
  | nil => cases h
  | cons modelId rest ih =>
      rw [visitAll] at h ⊢
      dsimp only at h ⊢
      cases hfirst : (job.visit manifest workspace modelId).result with
      | error stopped =>
          rw [hfirst] at h
          cases h
          exact ⟨modelId, workspace, comesTo_first job manifest workspace, hfirst, rfl⟩
      | ok outcome =>
          rw [hfirst] at h
          obtain ⟨other, found, hcomes, hvisit, hworkspace⟩ := ih (map_eq_error_iff.mp h)
          exact ⟨other, found, hcomes.cons hfirst, hvisit, hworkspace⟩

/-- A run stops where it comes to a model whose visit fails. -/
theorem ComesTo.stops (h : job.ComesTo manifest workspace modelIds modelId found)
    (hvisit : (job.visit manifest found modelId).result = .error failure) :
    (job.visitAll manifest workspace modelIds).result = .error failure ∧
      (job.visitAll manifest workspace modelIds).workspace =
        (job.visit manifest found modelId).workspace := by
  obtain ⟨front, back, outcomes, rfl, hfront, rfl⟩ := h
  obtain ⟨hworkspace, hresult⟩ := visitAll_append hfront (modelId :: back)
  rw [hworkspace, hresult, visitAll]
  dsimp only
  rw [hvisit]
  exact ⟨rfl, rfl⟩

/-! ## What changes at a turn -/

/-- Bringing a file up to date changes nothing unless it may write, and the text of the file can be
told and is another one. -/
theorem settle_workspace (check : Bool) (workspace : Workspace) (path : Path) (text : String) :
    (settle check workspace path text).1 = workspace ∨
      check = false ∧ ∃ current?, currentText workspace path = .ok current? ∧
        current? ≠ some text := by
  unfold settle
  cases hcurrent : currentText workspace path with
  | error failure => exact .inl rfl
  | ok current? =>
      dsimp only
      by_cases hsame : current? = some text
      · rw [if_pos hsame]
        exact .inl rfl
      · cases check with
        | true =>
            rw [if_neg hsame, if_pos rfl]
            exact .inl rfl
        | false => exact .inr ⟨rfl, current?, rfl, hsame⟩

/-- The job may write, it does not pass a model over, and the file of the model is out of date. -/
def Rewrites (job : Job) (manifest : Manifest) (workspace : Workspace) (modelId : WideText) :
    Prop :=
  job.check = false ∧ job.isProcessed manifest modelId = true ∧
    job.OutOfDate manifest workspace modelId

/-- A visit changes nothing unless it rewrites the file of its model. -/
theorem visit_workspace (job : Job) (manifest : Manifest) (workspace : Workspace)
    (modelId : WideText) :
    (job.visit manifest workspace modelId).workspace = workspace ∨
      job.Rewrites manifest workspace modelId := by
  cases hcase : job.isProcessed manifest modelId with
  | false => exact .inl (visit_workspace_of_not_isProcessed hcase)
  | true =>
      rw [visit_of_isProcessed hcase]
      cases hcompose : job.compose manifest modelId with
      | error failure => exact .inl (by simp [process, hcompose])
      | ok composed =>
          obtain ⟨set, text⟩ := composed
          rw [(process_of_compose hcompose).1]
          refine (settle_workspace job.check workspace _ text).imp id ?_
          rintro ⟨hwrites, current?, hcurrent, hdiffers⟩
          exact ⟨hwrites, hcase,
            outOfDate_iff.mpr ⟨set, text, current?, hcompose, hcurrent, hdiffers⟩⟩

/-- A visit changes at most the file that it rewrites and the directories on the way to it. -/
theorem visit_frame_of_rewrites (job : Job) (manifest : Manifest) (workspace : Workspace)
    (modelId : WideText) :
    Frame
      (fun location => job.Rewrites manifest workspace modelId ∧
        workspace.OnTheWay (job.targetPath modelId).parent location)
      (fun location => job.Rewrites manifest workspace modelId ∧
        location = workspace.destination (job.targetPath modelId))
      workspace (job.visit manifest workspace modelId).workspace := by
  rcases job.visit_workspace manifest workspace modelId with hsame | hrewrites
  · rw [hsame]
    exact .refl workspace
  · exact (job.visit_frame manifest workspace modelId).mono
      (fun _ hway => ⟨hrewrites, hway.2⟩) (fun _ hat => ⟨hrewrites, hat.2⟩)

/-- The run comes to a model and rewrites its file. -/
def RewritesAtTurn (job : Job) (manifest : Manifest) (workspace : Workspace)
    (modelIds : List WideText) (modelId : WideText) : Prop :=
  ∃ found, job.ComesTo manifest workspace modelIds modelId found ∧
    job.Rewrites manifest found modelId

/-- A directory on the way to the file of one of these models. -/
def OnTheWayTo (job : Job) (workspace : Workspace) (models : WideText → Prop)
    (location : Location) : Prop :=
  ∃ modelId, models modelId ∧ workspace.OnTheWay (job.targetPath modelId).parent location

/-- The file of one of these models. -/
def FileOf (job : Job) (workspace : Workspace) (models : WideText → Prop) (location : Location) :
    Prop :=
  ∃ modelId, models modelId ∧ location = workspace.destination (job.targetPath modelId)

/-- A run changes at most the files that it rewrites when their turns come, and the directories on
the way to them, whether or not it succeeds. -/
theorem visitAll_frame_of_rewrites (job : Job) (manifest : Manifest) (workspace : Workspace)
    (modelIds : List WideText) :
    Frame (job.OnTheWayTo workspace (job.RewritesAtTurn manifest workspace modelIds))
      (job.FileOf workspace (job.RewritesAtTurn manifest workspace modelIds))
      workspace (job.visitAll manifest workspace modelIds).workspace := by
  induction modelIds generalizing workspace with
  | nil => exact .refl workspace
  | cons modelId rest ih =>
      have hvisit := job.visit_frame_of_rewrites manifest workspace modelId
      have hturn (hrewrites : job.Rewrites manifest workspace modelId) :
          job.RewritesAtTurn manifest workspace (modelId :: rest) modelId :=
        ⟨workspace, comesTo_first job manifest workspace, hrewrites⟩
      have hfirst :
          Frame (job.OnTheWayTo workspace (job.RewritesAtTurn manifest workspace (modelId :: rest)))
            (job.FileOf workspace (job.RewritesAtTurn manifest workspace (modelId :: rest)))
            workspace (job.visit manifest workspace modelId).workspace :=
        hvisit.mono (fun _ hway => ⟨modelId, hturn hway.1, hway.2⟩)
          (fun _ hat => ⟨modelId, hturn hat.1, hat.2⟩)
      rw [visitAll]
      dsimp only
      cases hresult : (job.visit manifest workspace modelId).result with
      | error failure => exact hfirst
      | ok outcome =>
          -- What the run over the others rewrites lies where it lay before the first visit.
          refine hfirst.trans ((ih _).mono ?_ ?_)
          · rintro location ⟨other, ⟨found, hcomes, hrewrites⟩, front, hsome, hfront, hat⟩
            exact ⟨other, ⟨found, hcomes.cons hresult, hrewrites⟩, front, hsome, hfront,
              hat.trans (hvisit.destination_eq _)⟩
          · rintro location ⟨other, ⟨found, hcomes, hrewrites⟩, hat⟩
            exact ⟨other, ⟨found, hcomes.cons hresult, hrewrites⟩,
              hat.trans (hvisit.destination_eq _)⟩

/-! ## Whole runs -/

/-- A job that only looks changes nothing, whether or not the run succeeds. -/
theorem visitAll_workspace_of_check (hcheck : job.check = true) (workspace : Workspace)
    (modelIds : List WideText) :
    (job.visitAll manifest workspace modelIds).workspace = workspace := by
  induction modelIds generalizing workspace with
  | nil => rfl
  | cons modelId rest ih =>
      have hfirst : (job.visit manifest workspace modelId).workspace = workspace := by
        rcases job.visit_workspace manifest workspace modelId with hsame | ⟨hwrites, -⟩
        · exact hsame
        · rw [hcheck] at hwrites
          cases hwrites
      rw [visitAll]
      dsimp only
      cases (job.visit manifest workspace modelId).result with
      | error failure => exact hfirst
      | ok outcome =>
          rw [hfirst]
          exact ih workspace

/-- A run that cannot read its manifest changes nothing. -/
theorem run_workspace_of_error (h : registry.manifest workspace = .error failure) :
    (job.run registry workspace).workspace = workspace := by
  simp [run, h]

/-- A run that only looks changes nothing. -/
theorem run_workspace_of_check (hcheck : job.check = true) (registry : Registry)
    (workspace : Workspace) : (job.run registry workspace).workspace = workspace := by
  cases hmanifest : registry.manifest workspace with
  | error failure => exact run_workspace_of_error hmanifest
  | ok manifest =>
      rw [run_workspace hmanifest]
      exact visitAll_workspace_of_check hcheck workspace manifest.modelIds

/-- The run over a registry comes to a model and rewrites its file. -/
def RewritesInRun (job : Job) (registry : Registry) (workspace : Workspace) (modelId : WideText) :
    Prop :=
  ∃ manifest, registry.manifest workspace = .ok manifest ∧
    job.RewritesAtTurn manifest workspace manifest.modelIds modelId

/-- The workspace after a run differs from the one before it in what the run rewrites, and in
nothing else. -/
structure OnlyRewrites (job : Job) (registry : Registry) (before after : Workspace) : Prop where
  here_eq : after.here = before.here
  /-- Nothing is deleted. What stands somewhere stays, unless it is a file of a model that the run
  rewrites; then another file stands there. -/
  kept : ∀ location entry, before.tree.entry? location = some entry →
    after.tree.entry? location = some entry ∨
      entry ≠ .directory ∧ (∃ bytes, after.tree.entry? location = some (.file bytes)) ∧
        job.FileOf before (job.RewritesInRun registry before) location
  /-- What is new is the file of a model that the run rewrites, or a directory on the way to one. -/
  added : ∀ location entry, before.tree.entry? location = none →
    after.tree.entry? location = some entry →
      (entry ≠ .directory ∧ job.FileOf before (job.RewritesInRun registry before) location) ∨
        entry = .directory ∧ job.OnTheWayTo before (job.RewritesInRun registry before) location

/-- What stays in the frame of the files that a run rewrites differs in nothing else. -/
theorem onlyRewrites_of_frame {after : Workspace}
    (h : Frame (job.OnTheWayTo workspace (job.RewritesInRun registry workspace))
      (job.FileOf workspace (job.RewritesInRun registry workspace)) workspace after) :
    job.OnlyRewrites registry workspace after where
  here_eq := h.here_eq
  kept := by
    intro location entry hentry
    rcases h.entry location with hsame | ⟨hnone, -⟩ | ⟨hother, hfile, hat⟩
    · exact .inl (hsame.trans hentry)
    · rw [hentry] at hnone
      cases hnone
    · refine .inr ⟨?_, hfile, hat⟩
      rintro rfl
      exact hother hentry
  added := by
    intro location entry hnone hentry
    rcases h.entry location with hsame | ⟨-, hnew, hway⟩ | ⟨-, ⟨bytes, hfile⟩, hat⟩
    · rw [hsame, hnone] at hentry
      cases hentry
    · rw [hnew] at hentry
      cases hentry
      exact .inr ⟨rfl, hway⟩
    · rw [hfile] at hentry
      cases hentry
      exact .inl ⟨by simp, hat⟩

/-- A run changes the files that it rewrites, the directories on the way to them, and nothing
else, whether or not it succeeds. -/
theorem onlyRewrites_run (job : Job) (registry : Registry) (workspace : Workspace) :
    job.OnlyRewrites registry workspace (job.run registry workspace).workspace := by
  refine onlyRewrites_of_frame ?_
  cases hmanifest : registry.manifest workspace with
  | error failure =>
      rw [run_workspace_of_error hmanifest]
      exact .refl workspace
  | ok manifest =>
      rw [run_workspace hmanifest]
      refine (job.visitAll_frame_of_rewrites manifest workspace manifest.modelIds).mono ?_ ?_
      · rintro location ⟨modelId, hrewrites, hway⟩
        exact ⟨modelId, ⟨manifest, hmanifest, hrewrites⟩, hway⟩
      · rintro location ⟨modelId, hrewrites, hat⟩
        exact ⟨modelId, ⟨manifest, hmanifest, hrewrites⟩, hat⟩

end MachineRbi.Job
