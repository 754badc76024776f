import MachineRbi.Proofs.Generation.Turn
import MachineRbi.Proofs.Manifest.Lookup

/-!
# What a failed run leaves behind

A failure of the tool's own stops a run at a model whose text cannot be composed, before the files
are touched on its account. So the files are those that a run over the models before it leaves, and
neither its entry nor what comes behind it shows in them (`run_stopped`). What was written for the
models before it stays, so nothing has changed only if their files were up to date
(`run_stopped_unchanged`).
-/

namespace MachineRbi

/-- The manifest from the same source that lists these models instead. -/
def Manifest.relisted (manifest : Manifest) (models : List Model) : Manifest :=
  { manifest with models := models }

/-- The registry whose manifest has been read. -/
def Registry.loaded (manifest : Manifest) : Registry :=
  ⟨manifest.source, some manifest⟩

namespace Job

variable {job : Job} {manifest : Manifest} {workspace found : Workspace} {registry : Registry}
  {modelId : WideText} {failure : Failure} {front back : List Model} {model : Model}
  {outcomes : List Outcome}

section

variable [Stack]

/-- A model whose text cannot be composed stops its visit, and the files are left alone. -/
theorem visit_of_compose_eq_error (hprocessed : job.isProcessed manifest modelId = true)
    (hcompose : job.compose manifest modelId = .error failure) (workspace : Workspace) :
    job.visit manifest workspace modelId = ⟨workspace, [], .error failure⟩ := by
  rw [visit_of_isProcessed hprocessed]
  simp only [process, hcompose]

/-- A run that fails with a failure of the tool's own stops at a model that it does not pass over
and whose text cannot be composed for that reason. All files are as the visits before it left
them. -/
theorem visitAll_stops_at_compose {modelIds : List WideText}
    (hlisted : ∀ modelId ∈ modelIds, modelId ∈ manifest.modelIds)
    (h : (job.visitAll manifest workspace modelIds).result = .error failure)
    (hown : failure.IsOwn) :
    ∃ front modelId back outcomes, modelIds = front ++ modelId :: back ∧
      job.isProcessed manifest modelId = true ∧ job.compose manifest modelId = .error failure ∧
      (job.visitAll manifest workspace front).result = .ok outcomes ∧
      (job.visitAll manifest workspace modelIds).workspace =
        (job.visitAll manifest workspace front).workspace := by
  obtain ⟨modelId, found, ⟨front, back, outcomes, rfl, hfront, rfl⟩, hvisit, hworkspace⟩ :=
    visitAll_stops h
  have hmem : modelId ∈ manifest.modelIds := hlisted modelId (by simp)
  rcases failure_of_visit hmem hvisit with ⟨hprocessed, hcompose⟩ | ⟨fault, rfl⟩
  · refine ⟨front, modelId, back, outcomes, rfl, hprocessed, hcompose, hfront, ?_⟩
    rw [hworkspace, visit_of_compose_eq_error hprocessed hcompose]
  · exact (Failure.not_isOwn_file fault hown).elim

/-- The models that a manifest lists first are visited alike whatever it lists behind them. -/
theorem visitAll_relisted (manifest : Manifest) (front back : List Model) (workspace : Workspace) :
    job.visitAll (manifest.relisted (front ++ back)) workspace (front.map (·.id)) =
      job.visitAll (manifest.relisted front) workspace (front.map (·.id)) := by
  have hmodels : ∀ modelId ∈ front.map (·.id),
      (manifest.relisted (front ++ back)).model modelId =
        (manifest.relisted front).model modelId :=
    fun _ hmem => Manifest.model_append hmem
  have hsource : (manifest.relisted (front ++ back)).source = (manifest.relisted front).source :=
    rfl
  exact visitAll_congr (fun modelId hmem _ => .of_model (hmodels modelId hmem)) hsource workspace

/-- A run whose models before another one are visited without failure stops at that one if its text
cannot be composed. -/
theorem run_relisted_stops
    (hfront : (job.visitAll (manifest.relisted front) workspace (front.map (·.id))).result =
      .ok outcomes)
    (hprocessed : job.isProcessed (manifest.relisted (front ++ model :: back)) model.id = true)
    (hcompose : job.compose (manifest.relisted (front ++ model :: back)) model.id =
      .error failure) :
    (job.run (.loaded (manifest.relisted (front ++ model :: back))) workspace).result =
        .error failure ∧
      (job.run (.loaded (manifest.relisted (front ++ model :: back))) workspace).workspace =
        (job.visitAll (manifest.relisted front) workspace (front.map (·.id))).workspace := by
  have hmanifest : (Registry.loaded (manifest.relisted (front ++ model :: back))).manifest
      workspace = .ok (manifest.relisted (front ++ model :: back)) := rfl
  have hvisits : job.visitAll (manifest.relisted (front ++ model :: back)) workspace
      (front.map (·.id)) = job.visitAll (manifest.relisted front) workspace (front.map (·.id)) :=
    visitAll_relisted manifest front (model :: back) workspace
  have hcomes : job.ComesTo (manifest.relisted (front ++ model :: back)) workspace
      (manifest.relisted (front ++ model :: back)).modelIds model.id
      (job.visitAll (manifest.relisted front) workspace (front.map (·.id))).workspace := by
    refine ⟨front.map (·.id), back.map (·.id), outcomes, ?_, ?_, ?_⟩
    · simp [Manifest.relisted, Manifest.modelIds]
    · rw [hvisits, hfront]
    · rw [hvisits]
  have hvisit := visit_of_compose_eq_error hprocessed hcompose
    (job.visitAll (manifest.relisted front) workspace (front.map (·.id))).workspace
  obtain ⟨hresult, hworkspace⟩ := hcomes.stops (by rw [hvisit])
  rw [hvisit] at hworkspace
  exact ⟨(run_result_eq_error_iff hmanifest).mpr hresult,
    (run_workspace hmanifest).trans hworkspace⟩

/-- If a run over a registry fails with a failure of the tool's own, then it stops at a model that
it does not pass over, and inspecting and emitting that model alone fails in the same way. The
models before it that are not passed over have texts, and a run over only them completes and leaves
the files as the failed run does. Whatever the entry of that model and those behind it say, the same
files are left, and the failure is the one of that entry. -/
theorem run_stopped (hmanifest : registry.manifest workspace = .ok manifest)
    (hrun : (job.run registry workspace).result = .error failure) (hown : failure.IsOwn) :
    ∃ front model back, manifest.models = front ++ model :: back ∧
      job.isProcessed manifest model.id = true ∧
      job.compose (manifest.relisted [model]) model.id = .error failure ∧
      (∀ other ∈ front, job.isProcessed manifest other.id = true →
        ∃ set text, job.compose manifest other.id = .ok (set, text)) ∧
      let before := job.run (.loaded (manifest.relisted front)) workspace
      (∃ report, before.result = .ok report) ∧
      (job.run registry workspace).workspace = before.workspace ∧
      ∀ other rest stopped,
        let edited := manifest.relisted (front ++ other :: rest)
        job.isProcessed edited other.id = true →
        job.compose edited other.id = .error stopped →
        (job.run (.loaded edited) workspace).result = .error stopped ∧
          (job.run (.loaded edited) workspace).workspace = before.workspace := by
  obtain ⟨frontIds, modelId, backIds, outcomes, hids, hprocessed, hcompose, hvisits, hworkspace⟩ :=
    visitAll_stops_at_compose (fun _ => id) ((run_result_eq_error_iff hmanifest).mp hrun) hown
  obtain ⟨front, others, hmodels, rfl, hothers⟩ := List.map_eq_append_iff.mp hids
  obtain ⟨model, back, rfl, rfl, -⟩ := List.map_eq_cons_iff.mp hothers
  have hcomposed := compose_of_visitAll hvisits
  have hwhole : manifest.relisted (front ++ model :: back) = manifest := by
    rw [Manifest.relisted, ← hmodels]
  -- The model at which the run stops has no text, so it is not one of those before it.
  have hnew : model.id ∉ front.map (·.id) := by
    intro hmem
    obtain ⟨set, text, htext⟩ := hcomposed model.id hmem hprocessed
    rw [hcompose] at htext
    cases htext
  have halone : job.compose (manifest.relisted [model]) model.id = .error failure := by
    have hbehind : manifest.model model.id =
        (manifest.relisted (model :: back)).model model.id := by
      rw [← hwhole]
      exact Manifest.model_append_of_not_mem hnew
    have hsource : (manifest.relisted [model]).source = manifest.source := rfl
    rw [← hcompose]
    refine compose_congr (.of_model ?_) hsource
    rw [hbehind]
    simp [Manifest.model, Manifest.relisted]
  have hbefore : (Registry.loaded (manifest.relisted front)).manifest workspace =
      .ok (manifest.relisted front) := rfl
  have hfront : (job.visitAll (manifest.relisted front) workspace (front.map (·.id))) =
      job.visitAll manifest workspace (front.map (·.id)) := by
    rw [← visitAll_relisted manifest front (model :: back), hwhole]
  rw [← hfront] at hvisits hworkspace
  refine ⟨front, model, back, hmodels, hprocessed, halone, ?_, ?_, ?_, ?_⟩
  · intro other hmem hother
    exact hcomposed other.id (List.mem_map_of_mem hmem) hother
  · exact ⟨⟨outcomes⟩, (run_result_eq_ok_iff hbefore).mpr hvisits⟩
  · rw [run_workspace hmanifest, run_workspace hbefore]
    exact hworkspace
  · intro other rest stopped edited hother hstopped
    rw [run_workspace hbefore]
    exact run_relisted_stops hvisits hother hstopped

/-- A document that lists a lamp, a post with an event that gives no method a name, and a door. -/
def lampPostDoorDocument : Value :=
  .map [(.str "models", .map [
    (.str "Lamp", .map [(.str "state_machines", .map [])]),
    (.str "Post", .map [(.str "state_machines", .map [(.str "default",
      .map [(.str "events", .list [.str "bad name"])])])]),
    (.str "House::Door", .map [(.str "state_machines", .map [])])])]

/-- The manifest of the lamp, the post and the door. -/
def lampPostDoor : Manifest :=
  ⟨"models.yml",
    [⟨"Lamp", some []⟩,
     ⟨"Post", some [(.str "default", .map [(.str "events", .list [.str "bad name"])])]⟩,
     ⟨"House::Door", some []⟩]⟩

end

section

open scoped Stack

/-- A run over the lamp, the post and the door stops at the post, and leaves what a run over the
lamp leaves. -/
theorem run_stopped_lampPostDoor :
    let job : Job := { emitter := {}, outputDir := "rbi", excluded := [] }
    let run := job.run (.loaded lampPostDoor) ⟨.empty, []⟩
    let failure : Failure := .rejection (.methodName "may_bad name?" "Post")
    run.result = .error failure ∧
      ∃ front model back, lampPostDoor.models = front ++ model :: back ∧
        job.compose (lampPostDoor.relisted [model]) model.id = .error failure ∧
        run.workspace =
          (job.run (.loaded (lampPostDoor.relisted front)) ⟨.empty, []⟩).workspace := by
  intro job run failure
  have hrun : run.result = .error failure := by decide +kernel
  have hmanifest : (Registry.loaded lampPostDoor).manifest ⟨.empty, []⟩ = .ok lampPostDoor := rfl
  obtain ⟨front, model, back, hmodels, -, hcompose, -, -, hworkspace, -⟩ :=
    run_stopped hmanifest hrun ⟨_, rfl⟩
  exact ⟨hrun, front, model, back, hmodels, hcompose, hworkspace⟩

end

/-! ## Runs that fail and change nothing -/

/-- A run that writes and fails with a failure of the tool's own stops at a model without a text,
behind models that have texts or are passed over. It has changed nothing if the files of those were
up to date before it, and if they share no file and no carriage return is in the header, then only
if they were. -/
theorem run_stopped_unchanged [Stack] (hmanifest : registry.manifest workspace = .ok manifest)
    (hrun : (job.generating.run registry workspace).result = .error failure) (hown : failure.IsOwn)
    (hsigil : '\r' ∉ job.emitter.sigil.toList) (hcommand : '\r' ∉ job.emitter.command.toList)
    (htypes : job.types = job.emitter.types) :
    ∃ front modelId back, manifest.modelIds = front ++ modelId :: back ∧
      job.isProcessed manifest modelId = true ∧ job.compose manifest modelId = .error failure ∧
      let before := front.filter (job.isProcessed manifest)
      let after := (job.generating.run registry workspace).workspace
      (∀ other ∈ before, ∃ set text, job.compose manifest other = .ok (set, text)) ∧
      ((∀ other ∈ before, job.UpToDate manifest workspace other) → after = workspace) ∧
      ((before.Pairwise fun a b =>
          workspace.destination (job.targetPath a) ≠ workspace.destination (job.targetPath b)) →
        (∀ location, after.tree.entry? location = workspace.tree.entry? location) →
          ∀ other ∈ before, job.UpToDate manifest workspace other) := by
  obtain ⟨front, modelId, back, outcomes, hids, hprocessed, hcompose, hvisits, hworkspace⟩ :=
    visitAll_stops_at_compose (fun _ => id) ((run_result_eq_error_iff hmanifest).mp hrun) hown
  refine ⟨front, modelId, back, hids, hprocessed, hcompose, ?_⟩
  intro before after
  have hafter : after = (job.generating.visitAll manifest workspace front).workspace :=
    (run_workspace hmanifest).trans hworkspace
  refine ⟨?_, ?_, ?_⟩
  · intro other hmem
    obtain ⟨hlisted, hother⟩ := List.mem_filter.mp hmem
    exact compose_of_visitAll hvisits other hlisted hother
  · intro hfresh
    have hlisted : ∀ other ∈ front, other ∈ manifest.modelIds := by
      intro other hmem
      rw [hids]
      exact List.mem_append_left _ hmem
    have hidle : ∀ other ∈ front, job.generating.isProcessed manifest other = true →
        job.generating.UpToDate manifest workspace other :=
      fun other hmem hother => hfresh other (List.mem_filter.mpr ⟨hmem, hother⟩)
    rw [hafter]
    exact (visitAll_of_upToDate hlisted hidle).1
  · intro hapart hsame other hmem
    obtain ⟨hlisted, hother⟩ := List.mem_filter.mp hmem
    have hstored := stored_of_visitAll job.generating rfl hapart hvisits other hlisted hother
    rw [← hafter] at hstored
    obtain ⟨set, text, htext, hread⟩ := hstored.upToDate hsigil hcommand htypes
    -- What the run has stored was there before it, because nothing has changed.
    have hframe : Workspace.Frame (fun _ => False) (fun _ => False) after workspace := by
      refine ⟨?_, fun location => .inl (hsame location).symm⟩
      rw [hafter]
      exact (job.generating.visitAll_frame manifest workspace front).here_eq.symm
    exact ⟨set, text, htext, hframe.readText id hread⟩

open scoped Stack

/-- With the file of the lamp up to date, a run over the lamp, the post and the door fails and
leaves the files alone. -/
theorem run_stopped_unchanged_lampPostDoor :
    let job : Job := { emitter := {}, outputDir := "rbi", excluded := [] }
    let lamp : Registry := .loaded (lampPostDoor.relisted [⟨"Lamp", some []⟩])
    let workspace := (job.generating.run lamp ⟨.empty, []⟩).workspace
    let run := job.generating.run (.loaded lampPostDoor) workspace
    run.result = .error (.rejection (.methodName "may_bad name?" "Post")) ∧
      run.workspace = workspace := by
  intro job lamp workspace run
  have hpost : job.generating.compose lampPostDoor "Post" =
      .error (.rejection (.methodName "may_bad name?" "Post")) := by decide +kernel
  -- The first run has stored the text of the lamp.
  have hlamp : lamp.manifest ⟨.empty, []⟩ = .ok (lampPostDoor.relisted [⟨"Lamp", some []⟩]) := rfl
  have hfirst : (job.generating.run lamp ⟨.empty, []⟩).result =
      .ok ⟨[⟨"Lamp", .written, some "rbi/lamp.rbi", 0, ""⟩]⟩ := by decide +kernel
  have hfresh : job.generating.UpToDate (lampPostDoor.relisted [⟨"Lamp", some []⟩]) workspace
      "Lamp" := by
    have hvisits := (run_result_eq_ok_iff hlamp).mp hfirst
    have hstored := stored_of_visitAll job.generating rfl (List.pairwise_singleton _ _) hvisits
      "Lamp" List.mem_cons_self (by decide)
    rw [← run_workspace hlamp] at hstored
    exact hstored.upToDate (by decide) (by decide) rfl
  have hrun : run.result = .error (.rejection (.methodName "may_bad name?" "Post")) := by
    have hlisted : ∀ modelId ∈ [("Lamp" : WideText)],
        modelId ∈ (lampPostDoor.relisted [⟨"Lamp", some []⟩]).modelIds := by decide
    have hidle : ∀ modelId ∈ [("Lamp" : WideText)],
        job.generating.isProcessed (lampPostDoor.relisted [⟨"Lamp", some []⟩]) modelId = true →
          job.generating.UpToDate (lampPostDoor.relisted [⟨"Lamp", some []⟩]) workspace modelId :=
      fun modelId hmem _ => List.mem_singleton.mp hmem ▸ hfresh
    obtain ⟨-, outcomes, hvisits, -⟩ := visitAll_of_upToDate hlisted hidle
    exact (run_relisted_stops hvisits (by decide) hpost).1
  have hmanifest : (Registry.loaded lampPostDoor).manifest workspace = .ok lampPostDoor := rfl
  obtain ⟨front, modelId, back, hids, -, hcompose, hbefore, hkept, -⟩ :=
    run_stopped_unchanged hmanifest hrun ⟨_, rfl⟩ (by decide) (by decide) rfl
  refine ⟨hrun, hkept fun other hmem => ?_⟩
  have hlisted := (List.mem_filter.mp hmem).1
  -- Only the post has no text, so only the lamp is before the model at which the run stops.
  match front, hids with
  | [], hids =>
      obtain ⟨rfl, -⟩ := List.cons_eq_cons.mp hids
      exact absurd hcompose (by decide +kernel)
  | [first], hids =>
      obtain ⟨rfl, -⟩ := List.cons_eq_cons.mp hids
      rwa [List.mem_singleton.mp hlisted]
  | first :: second :: rest, hids =>
      obtain ⟨-, hids⟩ := List.cons_eq_cons.mp hids
      obtain ⟨rfl, -⟩ := List.cons_eq_cons.mp hids
      have hmem : ("Post" : WideText) ∈
          (first :: "Post" :: rest).filter (job.isProcessed lampPostDoor) :=
        List.mem_filter.mpr ⟨by simp, by decide +kernel⟩
      obtain ⟨set, text, htext⟩ := hbefore "Post" hmem
      cases hpost.symm.trans htext

/-- A run over the lamp, the post and the door in an empty file tree fails because of the name of an
event, and leaves a file of the lamp behind. -/
theorem not_run_stopped_unchanged_lampPostDoor :
    let job : Job := { emitter := {}, outputDir := "rbi", excluded := [] }
    let run := job.generating.run (.loaded lampPostDoor) ⟨.empty, []⟩
    Manifest.ofValue "models.yml" lampPostDoorDocument = .ok lampPostDoor ∧
      run.result = .error (.rejection (.methodName "may_bad name?" "Post")) ∧
      FileTree.empty.entry? ["rbi", "lamp.rbi"] = none ∧
      run.workspace.tree.entry? ["rbi", "lamp.rbi"] ≠ none := by
  refine ⟨rfl, ?_, ?_, ?_⟩ <;> decide +kernel

end Job

end MachineRbi
