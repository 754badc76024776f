import MachineRbi.Generation
import MachineRbi.Proofs.Files.Frame
import MachineRbi.Proofs.Files.Reading
import MachineRbi.Proofs.Manifest

/-!
# What a run does with one model

A visit passes a model over or processes it, and `isProcessed` decides which. `process_cases` lists
what processing can do: find the file up to date, find it out of date, or write it. All other facts
about a visit come from these cases, and `visit_keeps` and `visit_frame` bound what it changes
whether or not it succeeds.
-/

namespace MachineRbi.Job

open Workspace (Frame Kept)

variable {job : Job} {manifest : Manifest} {workspace after : Workspace} {path : Path}
  {text : String} {modelId : WideText} {outcome : Outcome}

/-- The job that brings files up to date. -/
def generating (job : Job) : Job :=
  { job with check := false }

/-- The job that only looks whether files are up to date. -/
def checking (job : Job) : Job :=
  { job with check := true }

/-! ## Files -/

/-- The text of a file is found exactly if it can be read. -/
theorem currentText_eq_some_iff :
    currentText workspace path = .ok (some text) ↔ workspace.readText path = .ok text := by
  constructor
  · intro h
    unfold currentText at h
    cases hexists : workspace.pathExists path with
    | error fault =>
        rw [hexists] at h
        cases h
    | ok found =>
        rw [hexists] at h
        cases found with
        | false => cases h
        | true =>
            cases hread : workspace.readText path with
            | error fault =>
                rw [hread] at h
                cases h
            | ok stored =>
                rw [hread] at h
                cases h
                rfl
  · intro h
    rw [currentText, Workspace.pathExists_of_readText h, h]
    rfl

variable [Stack]

/-- Storing a text keeps what work on its file keeps, whether or not it succeeds. -/
theorem store_keeps {p : Workspace → Prop} (hkept : Kept path p) (text : String)
    (h : p workspace) : p (store workspace path text).1 := by
  have hmake := hkept.makeDirectories true h
  unfold store
  split
  next middle fault hmade => rwa [hmade] at hmake
  next middle hmade =>
    rw [hmade] at hmake
    split
    next written hwritten => exact hkept.writeText hmake hwritten
    next fault hfault => exact hmake

/-- A stored text stands in its file. -/
theorem store_holds (h : store workspace path text = (after, .ok ())) :
    after.Holds path text.toUTF8 := by
  unfold store at h
  split at h
  next => cases h
  next middle hmade =>
    split at h
    next written hwritten =>
      obtain ⟨rfl, -⟩ := Prod.mk.inj h
      exact Workspace.writeText_holds hwritten
    next => cases h

/-! ## Models that are passed over -/

/-- The model is not excluded, and it has a list of state machines. -/
def isProcessed (job : Job) (manifest : Manifest) (modelId : WideText) : Bool :=
  !job.excluded.contains modelId && (manifest.isCapable modelId).toOption == some true

/-- Why a model that is not processed is passed over. -/
def skipReason (job : Job) (modelId : WideText) : String :=
  if job.excluded.contains modelId then "excluded" else "no state machine"

/-- The note about a model that is not processed. -/
def skipNote (job : Job) (modelId : WideText) : Note :=
  skippedNote modelId
    (if job.excluded.contains modelId then "excluded by configuration" else "no state machine")

omit [Stack] in
/-- Every listed model either has a list of state machines or has none. -/
theorem isCapable_of_mem (hmem : modelId ∈ manifest.modelIds) :
    ∃ capable, manifest.isCapable modelId = .ok capable := by
  obtain ⟨model, hmodel⟩ := Manifest.exists_model hmem
  exact ⟨model.machines?.isSome, by rw [Manifest.isCapable, hmodel]; rfl⟩

omit [Stack] in
/-- A model is processed unless it is excluded or has no list of state machines. -/
theorem isProcessed_iff :
    job.isProcessed manifest modelId = true ↔
      job.excluded.contains modelId = false ∧ manifest.isCapable modelId = .ok true := by
  unfold isProcessed
  cases job.excluded.contains modelId with
  | true => simp
  | false =>
      cases manifest.isCapable modelId with
      | error failure => simp [Except.toOption]
      | ok capable => simp [Except.toOption]

/-- A model that is not processed leaves the files alone. -/
theorem visit_workspace_of_not_isProcessed (h : job.isProcessed manifest modelId = false) :
    (job.visit manifest workspace modelId).workspace = workspace := by
  unfold visit
  cases hexcluded : job.excluded.contains modelId with
  | true => rfl
  | false =>
      cases hcapable : manifest.isCapable modelId with
      | error failure => rfl
      | ok capable =>
          cases capable with
          | false => rfl
          | true =>
              rw [isProcessed_iff.mpr ⟨hexcluded, hcapable⟩] at h
              cases h

/-- A listed model that is not processed is passed over, whatever the files are. -/
theorem visit_of_not_isProcessed (hmem : modelId ∈ manifest.modelIds)
    (h : job.isProcessed manifest modelId = false) :
    job.visit manifest workspace modelId =
      ⟨workspace, [job.skipNote modelId],
        .ok ⟨modelId, .skipped, none, 0, job.skipReason modelId⟩⟩ := by
  obtain ⟨capable, hcapable⟩ := isCapable_of_mem hmem
  unfold visit skipNote skipReason
  cases hexcluded : job.excluded.contains modelId with
  | true => rfl
  | false =>
      rw [hcapable]
      cases capable with
      | false => rfl
      | true =>
          rw [isProcessed_iff.mpr ⟨hexcluded, hcapable⟩] at h
          cases h

/-- The result for a listed model that is not processed says why. -/
theorem visit_result_of_not_isProcessed (hmem : modelId ∈ manifest.modelIds)
    (h : job.isProcessed manifest modelId = false) :
    (job.visit manifest workspace modelId).result =
      .ok ⟨modelId, .skipped, none, 0, job.skipReason modelId⟩ := by
  rw [visit_of_not_isProcessed hmem h]

/-- A model that is not passed over is processed. -/
theorem visit_of_isProcessed (h : job.isProcessed manifest modelId = true) :
    job.visit manifest workspace modelId = job.process manifest workspace modelId := by
  obtain ⟨hexcluded, hcapable⟩ := isProcessed_iff.mp h
  unfold visit
  rw [hexcluded, hcapable]
  rfl

/-! ## Models that are processed -/

/-- The outcome of a model that is processed. -/
def processedOutcome (job : Job) (modelId : WideText) (set : DeclarationSet) (status : Status) :
    Outcome :=
  ⟨modelId, status, some (job.targetPath modelId).text, set.size, ""⟩

/-- The file of a model holds the text that is made for it. -/
def UpToDate (job : Job) (manifest : Manifest) (workspace : Workspace) (modelId : WideText) :
    Prop :=
  ∃ set text, job.compose manifest modelId = .ok (set, text) ∧
    workspace.readText (job.targetPath modelId) = .ok text

/-- Bringing a file up to date does nothing if its text is the right one already; otherwise it only
says so, or stores the text. -/
theorem settle_cases {check : Bool} {status : Status}
    (h : settle check workspace path text = (after, .ok status)) :
    (workspace.readText path = .ok text ∧ after = workspace ∧ status = .unchanged) ∨
      (workspace.readText path ≠ .ok text ∧ check = true ∧ after = workspace ∧
        status = .stale) ∨
      (workspace.readText path ≠ .ok text ∧ check = false ∧
        store workspace path text = (after, .ok ()) ∧ status = .written) := by
  unfold settle at h
  cases hcurrent : currentText workspace path with
  | error failure => simp [hcurrent] at h
  | ok current =>
      rw [hcurrent] at h
      dsimp only at h
      by_cases hsame : current = some text
      · rw [if_pos hsame] at h
        cases h
        exact .inl ⟨currentText_eq_some_iff.mp (by rw [hcurrent, hsame]), rfl, rfl⟩
      · have hdiffers : workspace.readText path ≠ .ok text := fun hread =>
          hsame (Except.ok.inj (hcurrent.symm.trans (currentText_eq_some_iff.mpr hread)))
        rw [if_neg hsame] at h
        cases check with
        | true =>
            cases h
            exact .inr (.inl ⟨hdiffers, rfl, rfl, rfl⟩)
        | false =>
            cases hstore : store workspace path text with
            | mk stored result =>
                cases result with
                | error failure => simp [hstore, Except.map] at h
                | ok _ =>
                    simp only [hstore, Except.map] at h
                    cases h
                    exact .inr (.inr ⟨hdiffers, rfl, rfl, rfl⟩)

/-- Bringing a file up to date keeps what work on the file keeps. -/
theorem settle_keeps {p : Workspace → Prop} (hkept : Kept path p) (check : Bool) (text : String)
    (h : p workspace) : p (settle check workspace path text).1 := by
  unfold settle
  cases currentText workspace path with
  | error failure => exact h
  | ok current =>
      dsimp only
      split
      · exact h
      · split
        · exact h
        · exact store_keeps hkept text h

/-- Processing a model brings its file up to date with the text that is made for it. -/
theorem process_of_compose {set : DeclarationSet}
    (h : job.compose manifest modelId = .ok (set, text)) :
    (job.process manifest workspace modelId).workspace =
        (settle job.check workspace (job.targetPath modelId) text).1 ∧
      (job.process manifest workspace modelId).result =
        (settle job.check workspace (job.targetPath modelId) text).2.map
          (job.processedOutcome modelId set) := by
  unfold process
  rw [h]
  dsimp only
  generalize settle job.check workspace (job.targetPath modelId) text = settled
  exact ⟨rfl, rfl⟩

/-- What processing a model can do if it succeeds: nothing, because the file is up to date; nothing
else, because the job only looks; or write the file. -/
theorem process_cases (h : (job.process manifest workspace modelId).result = .ok outcome) :
    ∃ set text, job.compose manifest modelId = .ok (set, text) ∧
      ((workspace.readText (job.targetPath modelId) = .ok text ∧
          (job.process manifest workspace modelId).workspace = workspace ∧
          outcome = job.processedOutcome modelId set .unchanged) ∨
        (workspace.readText (job.targetPath modelId) ≠ .ok text ∧ job.check = true ∧
          (job.process manifest workspace modelId).workspace = workspace ∧
          outcome = job.processedOutcome modelId set .stale) ∨
        (workspace.readText (job.targetPath modelId) ≠ .ok text ∧ job.check = false ∧
          store workspace (job.targetPath modelId) text =
            ((job.process manifest workspace modelId).workspace, .ok ()) ∧
          outcome = job.processedOutcome modelId set .written)) := by
  cases hcompose : job.compose manifest modelId with
  | error failure => simp [process, hcompose] at h
  | ok composed =>
      obtain ⟨set, text⟩ := composed
      refine ⟨set, text, rfl, ?_⟩
      obtain ⟨hworkspace, hresult⟩ :=
        @process_of_compose job manifest workspace text modelId _ set hcompose
      rw [hresult] at h
      rw [hworkspace]
      cases hsettle : settle job.check workspace (job.targetPath modelId) text with
      | mk after result =>
          rw [hsettle] at h
          cases result with
          | error failure => cases h
          | ok status =>
              cases h
              rcases settle_cases hsettle with ⟨hread, hafter, rfl⟩ |
                ⟨hread, hcheck, hafter, rfl⟩ | ⟨hread, hcheck, hstore, rfl⟩
              · exact .inl ⟨hread, hafter, rfl⟩
              · exact .inr (.inl ⟨hread, hcheck, hafter, rfl⟩)
              · exact .inr (.inr ⟨hread, hcheck, hstore, rfl⟩)

/-- A model whose file is up to date is found unchanged. -/
theorem process_of_upToDate (h : job.UpToDate manifest workspace modelId) :
    ∃ set, (job.process manifest workspace modelId).workspace = workspace ∧
      (job.process manifest workspace modelId).result =
        .ok (job.processedOutcome modelId set .unchanged) := by
  obtain ⟨set, text, hcompose, hread⟩ := h
  have hsettle : settle job.check workspace (job.targetPath modelId) text =
      (workspace, .ok .unchanged) := by
    simp [settle, currentText_eq_some_iff.mpr hread]
  refine ⟨set, ?_⟩
  rw [(process_of_compose hcompose).1, (process_of_compose hcompose).2, hsettle]
  exact ⟨rfl, rfl⟩

/-- A visit keeps what work on the file of its model keeps, and everything if the model is passed
over. -/
theorem visit_keeps {p : Workspace → Prop}
    (hkept : job.isProcessed manifest modelId = true → Kept (job.targetPath modelId) p)
    (h : p workspace) : p (job.visit manifest workspace modelId).workspace := by
  cases hcase : job.isProcessed manifest modelId with
  | false => rwa [visit_workspace_of_not_isProcessed hcase]
  | true =>
      rw [visit_of_isProcessed hcase]
      cases hcompose : job.compose manifest modelId with
      | error failure =>
          have hsame : (job.process manifest workspace modelId).workspace = workspace := by
            simp [process, hcompose]
          rwa [hsame]
      | ok composed =>
          obtain ⟨set, text⟩ := composed
          rw [(process_of_compose hcompose).1]
          exact settle_keeps (hkept hcase) job.check text h

/-- A visit changes at most the file of its model and the directories on the way to it, and nothing
if the model is passed over. -/
theorem visit_frame (job : Job) (manifest : Manifest) (workspace : Workspace)
    (modelId : WideText) :
    Frame
      (fun location => job.isProcessed manifest modelId = true ∧
        workspace.OnTheWay (job.targetPath modelId).parent location)
      (fun location => job.isProcessed manifest modelId = true ∧
        location = workspace.destination (job.targetPath modelId))
      workspace (job.visit manifest workspace modelId).workspace := by
  refine visit_keeps (fun hprocessed => ?_) (.refl workspace)
  exact Workspace.kept_frame (fun _ hway => ⟨hprocessed, hway⟩) ⟨hprocessed, rfl⟩

end MachineRbi.Job
