import MachineRbi.Proofs.Generation.Run
import MachineRbi.Proofs.Traversal

/-!
# What a run reports

A run that succeeds has one outcome and one note for each model, in order. A check looks at all
files as they are before it, and reports those as stale that are missing or hold another text
(`staleNotes_of_check`). A run that fails does so for a text that cannot be composed, or for the
files (`failure_of_visitAll`).
-/

namespace MachineRbi

/-- The failure has a wording, so it is the tool's own. -/
def Failure.IsOwn (failure : Failure) : Prop :=
  ∃ message, failure.message? = some message

/-- A failure of the files is not the tool's own. -/
theorem Failure.not_isOwn_file (fault : FileFault) : ¬ (Failure.file fault).IsOwn := by
  rintro ⟨message, h⟩
  cases h

/-- A report is not stale exactly if no outcome is. -/
theorem Report.isStale_eq_false_iff {report : Report} :
    report.isStale = false ↔ ∀ outcome ∈ report.outcomes, outcome.status ≠ .stale := by
  rw [← withStatus_eq_nil_iff]
  simp [isStale]

namespace Job

variable {job : Job} {manifest : Manifest} {workspace : Workspace} {path : Path} {text : String}
  {modelId : WideText} {modelIds : List WideText} {outcome : Outcome} {outcomes : List Outcome}
  {registry : Registry} {report : Report} {failure : Failure}

/-! ## Outcomes -/

variable [Stack]

/-- The outcomes of a run are those of visits, each in the files that it finds. -/
theorem visits_of_visitAll
    (h : (job.visitAll manifest workspace modelIds).result = .ok outcomes) :
    List.Forall₂ (fun modelId outcome =>
      ∃ found, (job.visit manifest found modelId).result = .ok outcome) modelIds outcomes := by
  induction modelIds generalizing workspace outcomes with
  | nil =>
      cases h
      exact .nil
  | cons modelId rest ih =>
      obtain ⟨outcome, others, hfirst, hothers, rfl, -⟩ := visitAll_cons_eq_ok h
      exact .cons ⟨workspace, hfirst⟩ (ih hothers)

/-- A visit reports its model. -/
theorem modelId_of_visit (hmem : modelId ∈ manifest.modelIds)
    (h : (job.visit manifest workspace modelId).result = .ok outcome) :
    outcome.modelId = modelId := by
  cases hcase : job.isProcessed manifest modelId with
  | true =>
      rw [visit_of_isProcessed hcase] at h
      obtain ⟨set, text, -, ⟨-, -, rfl⟩ | ⟨-, -, -, rfl⟩ | ⟨-, -, -, rfl⟩⟩ := process_cases h <;>
        rfl
  | false =>
      rw [visit_result_of_not_isProcessed hmem hcase] at h
      cases h
      rfl

/-- A run over listed models reports each of them, in order. -/
theorem modelIds_of_visitAll (hlisted : ∀ modelId ∈ modelIds, modelId ∈ manifest.modelIds)
    (h : (job.visitAll manifest workspace modelIds).result = .ok outcomes) :
    outcomes.map (·.modelId) = modelIds := by
  have hids := ((List.forall₂_and_left _ _).mpr ⟨hlisted, visits_of_visitAll h⟩).imp
    fun _ _ ⟨hmem, _, hvisit⟩ => (modelId_of_visit hmem hvisit).symm
  rw [← List.forall₂_eq_eq_eq, List.forall₂_map_left_iff]
  exact hids.flip.imp fun _ _ h => Eq.symm h

/-- Every model that a run processes without failure has a text. -/
theorem compose_of_visitAll
    (h : (job.visitAll manifest workspace modelIds).result = .ok outcomes) :
    ∀ modelId ∈ modelIds, job.isProcessed manifest modelId = true →
      ∃ set text, job.compose manifest modelId = .ok (set, text) := by
  intro modelId hmem hprocessed
  obtain ⟨outcome, -, found, hvisit⟩ := exists_of_mem_left (visits_of_visitAll h) hmem
  rw [visit_of_isProcessed hprocessed] at hvisit
  obtain ⟨set, text, hcompose, -⟩ := process_cases hvisit
  exact ⟨set, text, hcompose⟩

/-- A check writes nothing, and other jobs find nothing stale. -/
theorem status_of_visit (hmem : modelId ∈ manifest.modelIds)
    (h : (job.visit manifest workspace modelId).result = .ok outcome) :
    outcome.status ≠ if job.check then .written else .stale := by
  cases hcase : job.isProcessed manifest modelId with
  | false =>
      rw [visit_result_of_not_isProcessed hmem hcase] at h
      cases h
      split <;> simp
  | true =>
      rw [visit_of_isProcessed hcase] at h
      obtain ⟨set, text, -, ⟨-, -, rfl⟩ | ⟨-, hcheck, -, rfl⟩ | ⟨-, hcheck, -, rfl⟩⟩ :=
        process_cases h
      · split <;> simp [processedOutcome]
      · simp [processedOutcome, hcheck]
      · simp [processedOutcome, hcheck]

/-- A run over listed models that checks writes nothing, and others find nothing stale. -/
theorem status_of_visitAll (hlisted : ∀ modelId ∈ modelIds, modelId ∈ manifest.modelIds)
    (h : (job.visitAll manifest workspace modelIds).result = .ok outcomes) :
    ∀ outcome ∈ outcomes, outcome.status ≠ if job.check then .written else .stale := by
  intro outcome hmem
  obtain ⟨modelId, hmodel, found, hvisit⟩ := exists_of_mem_left (visits_of_visitAll h).flip hmem
  exact status_of_visit (hlisted modelId hmodel) hvisit

/-! ## Notes -/

/-- The number of declarations of a model whose text is composed. -/
def declarationCount (job : Job) (manifest : Manifest) (modelId : WideText) : Nat :=
  match job.compose manifest modelId with
  | .ok (set, _) => set.size
  | .error _ => 0

/-- The note that a run makes about a model. -/
def visitNote (job : Job) (manifest : Manifest) (modelId : WideText) : Note :=
  if job.isProcessed manifest modelId then
    processedNote modelId (job.declarationCount manifest modelId) (job.targetPath modelId)
  else job.skipNote modelId

/-- A visit that succeeds makes one note, whatever the files are. -/
theorem notes_of_visit (hmem : modelId ∈ manifest.modelIds)
    (h : (job.visit manifest workspace modelId).result = .ok outcome) :
    (job.visit manifest workspace modelId).notes = [job.visitNote manifest modelId] := by
  cases hcase : job.isProcessed manifest modelId with
  | true =>
      rw [visit_of_isProcessed hcase] at h ⊢
      obtain ⟨set, text, hcompose, -⟩ := process_cases h
      simp [process, visitNote, declarationCount, hcase, hcompose]
  | false =>
      rw [visit_of_not_isProcessed hmem hcase]
      simp [visitNote, hcase]

/-- A run over listed models that succeeds makes one note about each of them, in order. -/
theorem notes_of_visitAll (hlisted : ∀ modelId ∈ modelIds, modelId ∈ manifest.modelIds)
    (h : (job.visitAll manifest workspace modelIds).result = .ok outcomes) :
    (job.visitAll manifest workspace modelIds).notes =
      modelIds.map (job.visitNote manifest) := by
  induction modelIds generalizing workspace outcomes with
  | nil => rfl
  | cons modelId rest ih =>
      obtain ⟨outcome, others, hfirst, hothers, -, -⟩ := visitAll_cons_eq_ok h
      have hrest := ih (fun other hmem => hlisted other (List.mem_cons_of_mem _ hmem)) hothers
      simp only [visitAll, hfirst]
      rw [hrest, notes_of_visit (hlisted modelId List.mem_cons_self) hfirst]
      rfl

/-- A run that succeeds says where it works, then what it does with each model, and at its end what
came of it. -/
theorem run_notes (hmanifest : registry.manifest workspace = .ok manifest)
    (h : (job.run registry workspace).result = .ok report) :
    (job.run registry workspace).notes =
      job.opening :: (manifest.modelIds.map (job.visitNote manifest) ++ job.closing report) := by
  have hvisits := (run_result_eq_ok_iff hmanifest).mp h
  simp only [run, hmanifest, runOver, hvisits]
  rw [notes_of_visitAll (fun _ => id) hvisits]

/-! ## Stale files -/

/-- The file of a model is missing, or it holds another text than the one that is made for it. -/
def OutOfDate (job : Job) (manifest : Manifest) (workspace : Workspace) (modelId : WideText) :
    Prop :=
  ∃ set text, job.compose manifest modelId = .ok (set, text) ∧
    (workspace.pathExists (job.targetPath modelId) = .ok false ∨
      ∃ stored, workspace.readText (job.targetPath modelId) = .ok stored ∧ stored ≠ text)

omit [Stack] in
/-- No text is found exactly if nothing stands at the path. -/
theorem currentText_eq_none_iff :
    currentText workspace path = .ok none ↔ workspace.pathExists path = .ok false := by
  unfold currentText
  cases hexists : workspace.pathExists path with
  | error fault => simp [bind, Except.bind, Except.mapError]
  | ok found =>
      cases found with
      | false => simp [bind, Except.bind, pure, Except.pure, Except.mapError]
      | true =>
          cases workspace.readText path <;>
            simp [bind, Except.bind, pure, Except.pure, Except.mapError]

/-- A file is out of date exactly if its text can be told and is not the one that is made. -/
theorem outOfDate_iff :
    job.OutOfDate manifest workspace modelId ↔
      ∃ set text current?, job.compose manifest modelId = .ok (set, text) ∧
        currentText workspace (job.targetPath modelId) = .ok current? ∧
        current? ≠ some text := by
  constructor
  · rintro ⟨set, text, hcompose, hmissing | ⟨stored, hread, hdiffers⟩⟩
    · exact ⟨set, text, none, hcompose, currentText_eq_none_iff.mpr hmissing, by simp⟩
    · exact ⟨set, text, some stored, hcompose, currentText_eq_some_iff.mpr hread, by simpa⟩
  · rintro ⟨set, text, current?, hcompose, hcurrent, hdiffers⟩
    refine ⟨set, text, hcompose, ?_⟩
    cases current? with
    | none => exact .inl (currentText_eq_none_iff.mp hcurrent)
    | some stored =>
        exact .inr ⟨stored, currentText_eq_some_iff.mp hcurrent, by simpa using hdiffers⟩

/-- Whether a file is out of date is told by looking at it. -/
def isOutOfDate (job : Job) (manifest : Manifest) (workspace : Workspace) (modelId : WideText) :
    Bool :=
  match job.compose manifest modelId, currentText workspace (job.targetPath modelId) with
  | .ok (_, text), .ok current? => current? ≠ some text
  | _, _ => false

/-- A file is out of date exactly if that is told by looking at it. -/
theorem isOutOfDate_iff :
    job.isOutOfDate manifest workspace modelId = true ↔
      job.OutOfDate manifest workspace modelId := by
  rw [outOfDate_iff]
  unfold isOutOfDate
  cases job.compose manifest modelId with
  | error failure => simp
  | ok composed =>
      obtain ⟨set, text⟩ := composed
      cases currentText workspace (job.targetPath modelId) <;> simp

/-- Whether a file is out of date can be decided. -/
instance : Decidable (job.OutOfDate manifest workspace modelId) :=
  decidable_of_iff _ isOutOfDate_iff

/-- The models that a job processes and whose files are out of date, in order. -/
def staleIds (job : Job) (manifest : Manifest) (workspace : Workspace) : List WideText :=
  (job.processedIds manifest).filter fun modelId => job.OutOfDate manifest workspace modelId

/-- The text of a file can be told if processing its model succeeds. -/
theorem currentText_of_process (h : (job.process manifest workspace modelId).result = .ok outcome) :
    ∃ current?, currentText workspace (job.targetPath modelId) = .ok current? := by
  obtain ⟨set, text, hcompose, -⟩ := process_cases h
  rw [(process_of_compose hcompose).2] at h
  unfold settle at h
  cases hcurrent : currentText workspace (job.targetPath modelId) with
  | error failure => simp [hcurrent, Except.map] at h
  | ok current? => exact ⟨current?, rfl⟩

/-- A file that can be looked at is out of date exactly if it is not up to date. -/
theorem outOfDate_iff_not_upToDate
    (h : (job.process manifest workspace modelId).result = .ok outcome) :
    job.OutOfDate manifest workspace modelId ↔ ¬ job.UpToDate manifest workspace modelId := by
  obtain ⟨set, text, hcompose, -⟩ := process_cases h
  obtain ⟨current?, hcurrent⟩ := currentText_of_process h
  have hfresh : job.UpToDate manifest workspace modelId ↔ current? = some text := by
    constructor
    · rintro ⟨set', text', hcompose', hread⟩
      obtain ⟨rfl, rfl⟩ := Prod.mk.inj (Except.ok.inj (hcompose.symm.trans hcompose'))
      exact Except.ok.inj (hcurrent.symm.trans (currentText_eq_some_iff.mpr hread))
    · rintro rfl
      exact ⟨set, text, hcompose, currentText_eq_some_iff.mp hcurrent⟩
  rw [hfresh, outOfDate_iff]
  simp [hcompose, hcurrent]

/-! ## Checks -/

/-- A check that succeeds leaves the files alone. -/
theorem visit_workspace_of_check (hcheck : job.check = true)
    (h : (job.visit manifest workspace modelId).result = .ok outcome) :
    (job.visit manifest workspace modelId).workspace = workspace := by
  cases hcase : job.isProcessed manifest modelId with
  | false => exact visit_workspace_of_not_isProcessed hcase
  | true =>
      rw [visit_of_isProcessed hcase] at h ⊢
      obtain ⟨set, text, -, ⟨-, hkept, -⟩ | ⟨-, -, hkept, -⟩ | ⟨-, hwrites, -⟩⟩ :=
        process_cases h
      · exact hkept
      · exact hkept
      · rw [hcheck] at hwrites
        cases hwrites

/-- The outcomes of a check are those of visits in the files that it starts with. -/
theorem visits_of_check (hcheck : job.check = true)
    (h : (job.visitAll manifest workspace modelIds).result = .ok outcomes) :
    List.Forall₂ (fun modelId outcome =>
      (job.visit manifest workspace modelId).result = .ok outcome) modelIds outcomes := by
  induction modelIds generalizing outcomes with
  | nil =>
      cases h
      exact .nil
  | cons modelId rest ih =>
      obtain ⟨outcome, others, hfirst, hothers, rfl, -⟩ := visitAll_cons_eq_ok h
      rw [visit_workspace_of_check hcheck hfirst] at hothers
      exact .cons hfirst (ih hothers)

/-- The warning about the file of a model. -/
def outOfDateNote (job : Job) (modelId : WideText) : Note :=
  .notice .warning
    ("Stale: " ++ (job.targetPath modelId).text ++ " (" ++ modelId.shown ++ ")")

/-- A check reports a model as stale exactly if it processes it and finds its file out of date. Then
the warning names the file. -/
theorem stale_of_check (hcheck : job.check = true) (hmem : modelId ∈ manifest.modelIds)
    (h : (job.visit manifest workspace modelId).result = .ok outcome) :
    (outcome.status = .stale ↔
      job.isProcessed manifest modelId = true ∧ job.OutOfDate manifest workspace modelId) ∧
    (outcome.status = .stale → staleNote outcome = job.outOfDateNote modelId) := by
  cases hcase : job.isProcessed manifest modelId with
  | false =>
      rw [visit_result_of_not_isProcessed hmem hcase] at h
      cases h
      simp
  | true =>
      rw [visit_of_isProcessed hcase] at h
      rw [outOfDate_iff_not_upToDate h]
      obtain ⟨set, text, hcompose, ⟨hread, -, rfl⟩ | ⟨hdiffers, -, -, rfl⟩ | ⟨-, hwrites, -⟩⟩ :=
        process_cases h
      · have hfresh : job.UpToDate manifest workspace modelId := ⟨set, text, hcompose, hread⟩
        simp [processedOutcome, hfresh]
      · have hstale : ¬ job.UpToDate manifest workspace modelId := by
          rintro ⟨set', text', hcompose', hread⟩
          obtain ⟨rfl, rfl⟩ := Prod.mk.inj (Except.ok.inj (hcompose.symm.trans hcompose'))
          exact hdiffers hread
        simp [processedOutcome, hstale, staleNote, outOfDateNote]
      · rw [hcheck] at hwrites
        cases hwrites

/-- A check warns of the models that it processes and whose files are out of date, in order. -/
theorem staleNotes_of_check (hcheck : job.check = true)
    (h : (job.visitAll manifest workspace manifest.modelIds).result = .ok outcomes) :
    (Report.withStatus ⟨outcomes⟩ .stale).map staleNote =
      (job.staleIds manifest workspace).map job.outOfDateNote := by
  have hvisits : List.Forall₂ (fun modelId outcome =>
      modelId ∈ manifest.modelIds ∧ (job.visit manifest workspace modelId).result = .ok outcome)
      manifest.modelIds outcomes :=
    (List.forall₂_and_left _ _).mpr ⟨fun _ => id, visits_of_check hcheck h⟩
  have hpairs := hvisits.imp fun _ _ hvisit => stale_of_check hcheck hvisit.1 hvisit.2
  unfold Report.withStatus staleIds processedIds
  rw [List.filter_filter]
  clear hvisits h
  generalize manifest.modelIds = modelIds at hpairs ⊢
  induction hpairs with
  | nil => rfl
  | @cons modelId outcome ids others hfirst _ ih =>
      obtain ⟨hstale, hnote⟩ := hfirst
      by_cases hcase : outcome.status = .stale
      · have hkept := hstale.mp hcase
        rw [List.filter_cons_of_pos (by simpa using hcase), List.filter_cons_of_pos]
        · rw [List.map_cons, List.map_cons, hnote hcase, ih]
        · simpa using hkept.symm
      · have hdropped := fun hkept => hcase (hstale.mpr hkept)
        rw [List.filter_cons_of_neg (by simpa using hcase), List.filter_cons_of_neg, ih]
        simpa [and_comm] using hdropped

/-- After a check that succeeds each file that was looked at is up to date or out of date. -/
theorem outOfDate_iff_of_check (hcheck : job.check = true)
    (h : (job.visitAll manifest workspace manifest.modelIds).result = .ok outcomes) :
    ∀ modelId ∈ job.processedIds manifest,
      (job.OutOfDate manifest workspace modelId ↔ ¬ job.UpToDate manifest workspace modelId) := by
  intro modelId hmem
  obtain ⟨hlisted, hprocessed⟩ := List.mem_filter.mp hmem
  obtain ⟨outcome, -, hvisit⟩ := exists_of_mem_left (visits_of_check hcheck h) hlisted
  rw [visit_of_isProcessed hprocessed] at hvisit
  exact outOfDate_iff_not_upToDate hvisit

/-- A check reports as many models as stale as it finds files out of date. -/
theorem length_stale_of_check (hcheck : job.check = true)
    (h : (job.visitAll manifest workspace manifest.modelIds).result = .ok outcomes) :
    (Report.withStatus ⟨outcomes⟩ .stale).length = (job.staleIds manifest workspace).length := by
  have hlengths := congrArg List.length (staleNotes_of_check hcheck h)
  rwa [List.length_map, List.length_map] at hlengths

/-- The report of a check is stale exactly if some file is out of date. -/
theorem isStale_of_check (hcheck : job.check = true)
    (h : (job.visitAll manifest workspace manifest.modelIds).result = .ok outcomes) :
    Report.isStale ⟨outcomes⟩ = true ↔
      ∃ modelId ∈ job.processedIds manifest, job.OutOfDate manifest workspace modelId := by
  have hnone : Report.withStatus ⟨outcomes⟩ .stale = [] ↔ job.staleIds manifest workspace = [] := by
    rw [← List.length_eq_zero_iff, length_stale_of_check hcheck h, List.length_eq_zero_iff]
  unfold Report.isStale
  simp [hnone, staleIds]

/-- The report of a check is not stale exactly if all files are up to date. -/
theorem isStale_eq_false_of_check (hcheck : job.check = true)
    (h : (job.visitAll manifest workspace manifest.modelIds).result = .ok outcomes) :
    Report.isStale ⟨outcomes⟩ = false ↔
      ∀ modelId ∈ job.processedIds manifest, job.UpToDate manifest workspace modelId := by
  rw [← Bool.not_eq_true, isStale_of_check hcheck h]
  push Not
  refine forall₂_congr fun modelId hmem => ?_
  rw [outOfDate_iff_of_check hcheck h modelId hmem, not_not]

/-- A check that finds files out of date warns of each of them and says how many there are. -/
theorem closing_of_check (hcheck : job.check = true)
    (h : (job.visitAll manifest workspace manifest.modelIds).result = .ok outcomes)
    (hstale : Report.isStale ⟨outcomes⟩ = true) :
    job.closing ⟨outcomes⟩ = (job.staleIds manifest workspace).map job.outOfDateNote ++
      [.notice .error (toString (job.staleIds manifest workspace).length ++
        " RBI file(s) out of date. Rerun generate.")] := by
  unfold closing countText
  rw [hcheck, hstale, staleNotes_of_check hcheck h, length_stale_of_check hcheck h]
  rfl

/-! ## Failures -/

omit [Stack] in
/-- The text of a file can fail to be told for the files only. -/
theorem failure_of_currentText (h : currentText workspace path = .error failure) :
    ∃ fault, failure = .file fault := by
  unfold currentText Except.mapError at h
  dsimp only at h
  split at h
  next fault hfault =>
    cases h
    exact ⟨fault, rfl⟩
  next => cases h

/-- Storing a text fails for the files only. -/
theorem failure_of_store (h : (store workspace path text).2 = .error failure) :
    ∃ fault, failure = .file fault := by
  unfold store at h
  split at h
  next middle fault hmade =>
    cases h
    exact ⟨fault, rfl⟩
  next middle hmade =>
    split at h
    next written hwritten => cases h
    next fault hfault =>
      cases h
      exact ⟨fault, rfl⟩

/-- Bringing a file up to date fails as looking for its text does, or as storing one. -/
theorem settle_eq_error {check : Bool}
    (h : (settle check workspace path text).2 = .error failure) :
    currentText workspace path = .error failure ∨
      (store workspace path text).2 = .error failure := by
  unfold settle at h
  cases hcurrent : currentText workspace path with
  | error found =>
      rw [hcurrent] at h
      cases h
      exact .inl rfl
  | ok current? =>
      rw [hcurrent] at h
      dsimp only at h
      split at h
      next => cases h
      next =>
        split at h
        next => cases h
        next => exact .inr (map_eq_error_iff.mp h)

/-- Bringing a file up to date fails for the files only. -/
theorem failure_of_settle {check : Bool}
    (h : (settle check workspace path text).2 = .error failure) :
    ∃ fault, failure = .file fault := by
  rcases settle_eq_error h with hcurrent | hstore
  · exact failure_of_currentText hcurrent
  · exact failure_of_store hstore

/-- A visit to a listed model fails for a text that cannot be composed, or for the files. -/
theorem failure_of_visit (hmem : modelId ∈ manifest.modelIds)
    (h : (job.visit manifest workspace modelId).result = .error failure) :
    (job.isProcessed manifest modelId = true ∧ job.compose manifest modelId = .error failure) ∨
      ∃ fault, failure = .file fault := by
  cases hcase : job.isProcessed manifest modelId with
  | false =>
      rw [visit_result_of_not_isProcessed hmem hcase] at h
      cases h
  | true =>
      rw [visit_of_isProcessed hcase] at h
      cases hcompose : job.compose manifest modelId with
      | error found =>
          simp only [process, hcompose] at h
          cases h
          exact .inl ⟨rfl, rfl⟩
      | ok composed =>
          obtain ⟨set, text⟩ := composed
          rw [(process_of_compose hcompose).2] at h
          exact .inr (failure_of_settle (map_eq_error_iff.mp h))

/-- A run over listed models fails for the text of one of them that cannot be composed, or for the
files. -/
theorem failure_of_visitAll (hlisted : ∀ modelId ∈ modelIds, modelId ∈ manifest.modelIds)
    (h : (job.visitAll manifest workspace modelIds).result = .error failure) :
    (∃ modelId ∈ modelIds, job.isProcessed manifest modelId = true ∧
        job.compose manifest modelId = .error failure) ∨
      ∃ fault, failure = .file fault := by
  induction modelIds generalizing workspace with
  | nil => cases h
  | cons modelId rest ih =>
      rw [visitAll] at h
      dsimp only at h
      cases hfirst : (job.visit manifest workspace modelId).result with
      | error found =>
          rw [hfirst] at h
          cases h
          rcases failure_of_visit (hlisted modelId List.mem_cons_self) hfirst with hcompose | hfile
          · exact .inl ⟨modelId, List.mem_cons_self, hcompose⟩
          · exact .inr hfile
      | ok outcome =>
          rw [hfirst] at h
          have hothers := map_eq_error_iff.mp h
          rcases ih (fun other hmem => hlisted other (List.mem_cons_of_mem _ hmem)) hothers with
            ⟨other, hmem, hcompose⟩ | hfile
          · exact .inl ⟨other, List.mem_cons_of_mem _ hmem, hcompose⟩
          · exact .inr hfile

/-- A check that finds no file of a model can only fail for a text that cannot be composed. -/
theorem failure_of_visit_missing (hcheck : job.check = true) (hmem : modelId ∈ manifest.modelIds)
    (hmissing : job.isProcessed manifest modelId = true →
      workspace.pathExists (job.targetPath modelId) = .ok false)
    (h : (job.visit manifest workspace modelId).result = .error failure) :
    job.isProcessed manifest modelId = true ∧ job.compose manifest modelId = .error failure := by
  cases hcase : job.isProcessed manifest modelId with
  | false =>
      rw [visit_result_of_not_isProcessed hmem hcase] at h
      cases h
  | true =>
      rw [visit_of_isProcessed hcase] at h
      cases hcompose : job.compose manifest modelId with
      | error found =>
          simp only [process, hcompose] at h
          cases h
          exact ⟨rfl, rfl⟩
      | ok composed =>
          obtain ⟨set, text⟩ := composed
          -- With a text and no file, the check finds the file stale.
          have hsettled : settle job.check workspace (job.targetPath modelId) text =
              (workspace, .ok .stale) := by
            simp [settle, currentText_eq_none_iff.mpr (hmissing hcase), hcheck]
          rw [(process_of_compose hcompose).2, hsettled] at h
          cases h

/-- A check over listed models that finds no file of them can only fail for the text of one of them
that cannot be composed. -/
theorem failure_of_visitAll_missing (hcheck : job.check = true)
    (hlisted : ∀ modelId ∈ modelIds, modelId ∈ manifest.modelIds)
    (hmissing : ∀ modelId ∈ modelIds, job.isProcessed manifest modelId = true →
      workspace.pathExists (job.targetPath modelId) = .ok false)
    (h : (job.visitAll manifest workspace modelIds).result = .error failure) :
    ∃ modelId ∈ modelIds, job.isProcessed manifest modelId = true ∧
      job.compose manifest modelId = .error failure := by
  induction modelIds with
  | nil => cases h
  | cons modelId rest ih =>
      rw [visitAll] at h
      dsimp only at h
      cases hfirst : (job.visit manifest workspace modelId).result with
      | error found =>
          rw [hfirst] at h
          cases h
          exact ⟨modelId, List.mem_cons_self, failure_of_visit_missing hcheck
            (hlisted modelId List.mem_cons_self) (hmissing modelId List.mem_cons_self) hfirst⟩
      | ok outcome =>
          -- The check leaves the files alone, so none of them is there for the others either.
          rw [hfirst, visit_workspace_of_check hcheck hfirst] at h
          obtain ⟨other, hmem, hother⟩ := ih
            (fun other hmem => hlisted other (List.mem_cons_of_mem _ hmem))
            (fun other hmem => hmissing other (List.mem_cons_of_mem _ hmem))
            (map_eq_error_iff.mp h)
          exact ⟨other, List.mem_cons_of_mem _ hmem, hother⟩

end Job

end MachineRbi
