import MachineRbi.Proofs.Files.Closed
import MachineRbi.Proofs.Generation.Visit

/-!
# Runs over the models of a manifest

A run visits the models in order, each in the files that the visits before it left. What work on
each file keeps, a run keeps (`visitAll_keeps`), so `visitAll_frame` bounds what it changes.
`stored_of_visitAll` says that a run which writes stores the text of every model if no two models
share a file. A run finds nothing to do exactly if every file is up to date, which
`visitAll_idle_iff` says of both kinds of job at once.
-/

namespace MachineRbi

/-- A status is not reported exactly if no outcome has it. -/
theorem Report.withStatus_eq_nil_iff {report : Report} {status : Status} :
    report.withStatus status = [] ↔ ∀ outcome ∈ report.outcomes, outcome.status ≠ status := by
  simp [Report.withStatus, List.filter_eq_nil_iff]

namespace Job

open Workspace (Frame Kept)

variable {job : Job} {manifest : Manifest} {workspace : Workspace} {modelId : WideText}
  {rest modelIds : List WideText} {outcomes : List Outcome}

/-! ## Steps -/

variable [Stack]

/-- A run that succeeds goes on in the files that its first visit left. -/
theorem visitAll_cons_eq_ok
    (h : (job.visitAll manifest workspace (modelId :: rest)).result = .ok outcomes) :
    ∃ outcome others, (job.visit manifest workspace modelId).result = .ok outcome ∧
      (job.visitAll manifest (job.visit manifest workspace modelId).workspace rest).result =
        .ok others ∧
      outcomes = outcome :: others ∧
      (job.visitAll manifest workspace (modelId :: rest)).workspace =
        (job.visitAll manifest (job.visit manifest workspace modelId).workspace
          rest).workspace := by
  simp only [visitAll] at h ⊢
  cases hfirst : (job.visit manifest workspace modelId).result with
  | error failure => simp [hfirst] at h
  | ok outcome =>
      simp only [hfirst] at h
      cases hothers :
          (job.visitAll manifest (job.visit manifest workspace modelId).workspace rest).result with
      | error failure => simp [hothers, Except.map] at h
      | ok others =>
          rw [hothers] at h
          cases h
          exact ⟨outcome, others, rfl, rfl, rfl, rfl⟩

/-- A run succeeds if its first visit and the run over the others do. -/
theorem visitAll_cons_of_ok {outcome : Outcome} {others : List Outcome}
    (hfirst : (job.visit manifest workspace modelId).result = .ok outcome)
    (hothers :
      (job.visitAll manifest (job.visit manifest workspace modelId).workspace rest).result =
        .ok others) :
    (job.visitAll manifest workspace (modelId :: rest)).result = .ok (outcome :: others) ∧
      (job.visitAll manifest workspace (modelId :: rest)).workspace =
        (job.visitAll manifest (job.visit manifest workspace modelId).workspace
          rest).workspace := by
  simp only [visitAll, hfirst, hothers, Except.map, and_self]

/-- A run keeps what work on the files of the models that it processes keeps, whether or not it
succeeds. -/
theorem visitAll_keeps {p : Workspace → Prop}
    (hkept : ∀ modelId ∈ modelIds, job.isProcessed manifest modelId = true →
      Kept (job.targetPath modelId) p)
    (h : p workspace) : p (job.visitAll manifest workspace modelIds).workspace := by
  induction modelIds generalizing workspace with
  | nil => exact h
  | cons modelId rest ih =>
      have hfirst := visit_keeps (hkept modelId List.mem_cons_self) h
      rw [visitAll]
      dsimp only
      cases (job.visit manifest workspace modelId).result with
      | error failure => exact hfirst
      | ok outcome => exact ih (fun other hmem => hkept other (List.mem_cons_of_mem _ hmem)) hfirst

/-- A run changes at most the files of the models that it processes and the directories on the way
to them, whether or not it succeeds. -/
theorem visitAll_frame (job : Job) (manifest : Manifest) (workspace : Workspace)
    (modelIds : List WideText) :
    Frame
      (fun location => ∃ modelId ∈ modelIds, job.isProcessed manifest modelId = true ∧
        workspace.OnTheWay (job.targetPath modelId).parent location)
      (fun location => ∃ modelId ∈ modelIds, job.isProcessed manifest modelId = true ∧
        location = workspace.destination (job.targetPath modelId))
      workspace (job.visitAll manifest workspace modelIds).workspace := by
  refine visitAll_keeps (fun modelId hmem hprocessed => ?_) (.refl workspace)
  exact Workspace.kept_frame (fun _ hway => ⟨modelId, hmem, hprocessed, hway⟩)
    ⟨modelId, hmem, hprocessed, rfl⟩

/-! ## Runs with nothing to do -/

/-- The status of a model whose file needs no change. -/
def idleStatus (job : Job) (manifest : Manifest) (modelId : WideText) : Status :=
  if job.isProcessed manifest modelId then .unchanged else .skipped

/-- If all files are up to date a run leaves them alone and says so of each. -/
theorem visitAll_of_upToDate (hlisted : ∀ modelId ∈ modelIds, modelId ∈ manifest.modelIds)
    (hfresh : ∀ modelId ∈ modelIds, job.isProcessed manifest modelId = true →
      job.UpToDate manifest workspace modelId) :
    (job.visitAll manifest workspace modelIds).workspace = workspace ∧
      ∃ outcomes, (job.visitAll manifest workspace modelIds).result = .ok outcomes ∧
        outcomes.map (fun outcome => (outcome.modelId, outcome.status)) =
          modelIds.map fun modelId => (modelId, job.idleStatus manifest modelId) := by
  induction modelIds with
  | nil => exact ⟨rfl, [], rfl, rfl⟩
  | cons modelId rest ih =>
      obtain ⟨hrest, others, hothers, hstatuses⟩ :=
        ih (fun other hmem => hlisted other (List.mem_cons_of_mem _ hmem))
          (fun other hmem => hfresh other (List.mem_cons_of_mem _ hmem))
      have hfirst : ∃ outcome, (job.visit manifest workspace modelId).workspace = workspace ∧
          (job.visit manifest workspace modelId).result = .ok outcome ∧
          outcome.modelId = modelId ∧ outcome.status = job.idleStatus manifest modelId := by
        cases hcase : job.isProcessed manifest modelId with
        | false =>
            exact ⟨_, visit_workspace_of_not_isProcessed hcase,
              visit_result_of_not_isProcessed (hlisted modelId List.mem_cons_self) hcase, rfl,
              by simp [idleStatus, hcase]⟩
        | true =>
            obtain ⟨set, hworkspace, hresult⟩ :=
              process_of_upToDate (hfresh modelId List.mem_cons_self hcase)
            rw [visit_of_isProcessed hcase]
            exact ⟨_, hworkspace, hresult, rfl, by simp [idleStatus, hcase, processedOutcome]⟩
      obtain ⟨outcome, hworkspace, hresult, hid, hstatus⟩ := hfirst
      obtain ⟨hall, hafter⟩ := visitAll_cons_of_ok hresult (by rw [hworkspace]; exact hothers)
      refine ⟨by rw [hafter, hworkspace, hrest], outcome :: others, hall, ?_⟩
      rw [List.map_cons, List.map_cons, hstatuses, hid, hstatus]

/-- A run that finds no file missing or different leaves the files alone, and all are up to date. -/
theorem upToDate_of_visitAll_idle
    (h : (job.visitAll manifest workspace modelIds).result = .ok outcomes)
    (hidle : ∀ outcome ∈ outcomes, outcome.status ≠ .stale ∧ outcome.status ≠ .written) :
    ∀ modelId ∈ modelIds, job.isProcessed manifest modelId = true →
      job.UpToDate manifest workspace modelId := by
  induction modelIds generalizing outcomes with
  | nil => simp
  | cons modelId rest ih =>
      obtain ⟨outcome, others, hfirst, hothers, rfl, -⟩ := visitAll_cons_eq_ok h
      obtain ⟨hstale, hwritten⟩ := hidle outcome List.mem_cons_self
      have hvisit : (job.visit manifest workspace modelId).workspace = workspace ∧
          (job.isProcessed manifest modelId = true →
            job.UpToDate manifest workspace modelId) := by
        cases hcase : job.isProcessed manifest modelId with
        | false => exact ⟨visit_workspace_of_not_isProcessed hcase, fun h => by cases h⟩
        | true =>
            rw [visit_of_isProcessed hcase] at hfirst ⊢
            obtain ⟨set, text, hcompose, ⟨hread, hkept, rfl⟩ | ⟨_, _, _, rfl⟩ | ⟨_, _, _, rfl⟩⟩ :=
              process_cases hfirst
            · exact ⟨hkept, fun _ => ⟨set, text, hcompose, hread⟩⟩
            · exact (hstale rfl).elim
            · exact (hwritten rfl).elim
      -- The first visit has changed nothing, so the others see the same files.
      rw [hvisit.1] at hothers
      have hrest := ih hothers fun other hmem => hidle other (List.mem_cons_of_mem _ hmem)
      intro other hmem
      rcases List.mem_cons.mp hmem with rfl | hmem
      · exact hvisit.2
      · exact hrest other hmem

/-- A run over listed models finds nothing to do exactly if all their files are up to date. -/
theorem visitAll_idle_iff (job : Job)
    (hlisted : ∀ modelId ∈ modelIds, modelId ∈ manifest.modelIds) :
    (∃ outcomes, (job.visitAll manifest workspace modelIds).result = .ok outcomes ∧
        ∀ outcome ∈ outcomes, outcome.status ≠ .stale ∧ outcome.status ≠ .written) ↔
      ∀ modelId ∈ modelIds, job.isProcessed manifest modelId = true →
        job.UpToDate manifest workspace modelId := by
  constructor
  · rintro ⟨outcomes, hresult, hidle⟩
    exact upToDate_of_visitAll_idle hresult hidle
  · intro hfresh
    obtain ⟨-, outcomes, hresult, hstatuses⟩ := visitAll_of_upToDate hlisted hfresh
    refine ⟨outcomes, hresult, fun outcome hmem => ?_⟩
    have hpair : (outcome.modelId, outcome.status) ∈
        modelIds.map fun modelId => (modelId, job.idleStatus manifest modelId) :=
      hstatuses ▸ List.mem_map_of_mem hmem
    obtain ⟨modelId, -, heq⟩ := List.mem_map.mp hpair
    obtain ⟨-, hstatus⟩ := Prod.mk.inj heq
    rw [← hstatus]
    unfold idleStatus
    split <;> simp

/-! ## Runs that write -/

/-- The file of a model reads as the text that is made for it, but for line ends. -/
def Stored (job : Job) (manifest : Manifest) (workspace : Workspace) (modelId : WideText) : Prop :=
  ∃ set text, job.compose manifest modelId = .ok (set, text) ∧
    workspace.readText (job.targetPath modelId) = .ok (Text.unified text)

/-- A stored text stays so if its file lies away from the changes. -/
theorem Stored.frame {directories files : Location → Prop} {after : Workspace}
    (h : job.Stored manifest workspace modelId)
    (hframe : Frame directories files workspace after)
    (haway : ¬ files (workspace.destination (job.targetPath modelId))) :
    job.Stored manifest after modelId := by
  obtain ⟨set, text, hcompose, hread⟩ := h
  exact ⟨set, text, hcompose, hframe.readText haway hread⟩

/-- A visit that may write stores the text of its model. -/
theorem stored_of_visit {outcome : Outcome} (hwrites : job.check = false)
    (hprocessed : job.isProcessed manifest modelId = true)
    (h : (job.visit manifest workspace modelId).result = .ok outcome) :
    job.Stored manifest (job.visit manifest workspace modelId).workspace modelId := by
  rw [visit_of_isProcessed hprocessed] at h ⊢
  obtain ⟨set, text, hcompose, ⟨hread, hkept, -⟩ | ⟨-, hcheck, -⟩ | ⟨-, -, hstore, -⟩⟩ :=
    process_cases h
  · rw [hkept]
    exact ⟨set, text, hcompose, by rw [Workspace.unified_of_readText hread, hread]⟩
  · rw [hwrites] at hcheck
    cases hcheck
  · exact ⟨set, text, hcompose, Workspace.readText_of_holds (store_holds hstore)⟩

/-- A run that may write stores the texts of all its models if no two of them have the same
file. -/
theorem stored_of_visitAll (job : Job) (hwrites : job.check = false)
    (hapart : (modelIds.filter (job.isProcessed manifest)).Pairwise fun a b =>
      workspace.destination (job.targetPath a) ≠ workspace.destination (job.targetPath b))
    (h : (job.visitAll manifest workspace modelIds).result = .ok outcomes) :
    ∀ modelId ∈ modelIds, job.isProcessed manifest modelId = true →
      job.Stored manifest (job.visitAll manifest workspace modelIds).workspace modelId := by
  induction modelIds generalizing workspace outcomes with
  | nil => simp
  | cons modelId rest ih =>
      obtain ⟨outcome, others, hfirst, hothers, -, hafter⟩ := visitAll_cons_eq_ok h
      have hvisit := job.visit_frame manifest workspace modelId
      have hapartRest : (rest.filter (job.isProcessed manifest)).Pairwise fun a b =>
          workspace.destination (job.targetPath a) ≠
            workspace.destination (job.targetPath b) :=
        hapart.sublist ((List.sublist_cons_self modelId rest).filter _)
      simp only [← hvisit.destination_eq] at hapartRest
      have hrest := ih hapartRest hothers
      rw [hafter]
      intro other hmem hprocessed
      rcases List.mem_cons.mp hmem with rfl | hmem
      · -- The visits that follow change other files only.
        refine (stored_of_visit hwrites hprocessed hfirst).frame
          (job.visitAll_frame manifest _ rest) ?_
        rintro ⟨later, hlater, hlaterProcessed, hsame⟩
        rw [hvisit.destination_eq, hvisit.destination_eq] at hsame
        rw [List.filter_cons_of_pos hprocessed, List.pairwise_cons] at hapart
        exact hapart.1 later (List.mem_filter.mpr ⟨hlater, hlaterProcessed⟩) hsame
      · exact hrest other hmem hprocessed

/-! ## Whole runs -/

/-- The models of a manifest that a job does not pass over, in order. -/
def processedIds (job : Job) (manifest : Manifest) : List WideText :=
  manifest.modelIds.filter (job.isProcessed manifest)

/-- No two models that a job processes have the same file. -/
def TargetsApart (job : Job) (manifest : Manifest) (workspace : Workspace) : Prop :=
  (job.processedIds manifest).Pairwise fun a b =>
    workspace.destination (job.targetPath a) ≠ workspace.destination (job.targetPath b)

variable {registry : Registry} {report : Report}

/-- A run over a registry is one over the models of its manifest. -/
theorem run_result_eq_ok_iff (hmanifest : registry.manifest workspace = .ok manifest) :
    (job.run registry workspace).result = .ok report ↔
      (job.visitAll manifest workspace manifest.modelIds).result = .ok report.outcomes := by
  unfold run runOver
  rw [hmanifest]
  dsimp only
  cases (job.visitAll manifest workspace manifest.modelIds).result with
  | error failure => simp
  | ok outcomes =>
      cases report
      simp

/-- A run over a registry fails as the visits to the models of its manifest do. -/
theorem run_result_eq_error_iff {failure : Failure}
    (hmanifest : registry.manifest workspace = .ok manifest) :
    (job.run registry workspace).result = .error failure ↔
      (job.visitAll manifest workspace manifest.modelIds).result = .error failure := by
  unfold run runOver
  rw [hmanifest]
  dsimp only
  cases (job.visitAll manifest workspace manifest.modelIds).result <;> simp

/-- A run over a registry changes the files as the visits do. -/
theorem run_workspace (hmanifest : registry.manifest workspace = .ok manifest) :
    (job.run registry workspace).workspace =
      (job.visitAll manifest workspace manifest.modelIds).workspace := by
  unfold run runOver
  rw [hmanifest]
  dsimp only
  cases (job.visitAll manifest workspace manifest.modelIds).result <;> rfl

/-- Once read, a manifest stays with its registry. -/
theorem manifest_afterQuery (hmanifest : registry.manifest workspace = .ok manifest)
    (later : Workspace) : (registry.afterQuery workspace).manifest later = .ok manifest := by
  unfold Registry.afterQuery
  rw [hmanifest]
  rfl

/-- A lamp with one state machine, and a door with an empty list of them. -/
def lampAndDoor : Manifest :=
  ⟨"models.yml",
    [⟨"Lamp", some [(.str "power",
      .map [(.str "events", .list [.str "toggle"]), (.str "states", .list [.str "on"])])]⟩,
     ⟨"House::Door", some []⟩]⟩

end Job

end MachineRbi
