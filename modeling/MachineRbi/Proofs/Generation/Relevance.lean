import MachineRbi.Proofs.Generation.Interruption

/-!
# The parts of a manifest that a run reads

Two documents may differ in everything that has no part in a run: in the entries of excluded models,
however wrong the bodies of their state machines are, and in all keys that are not read. If they
list the same ids and give every other model the same outline, nothing tells runs over them apart:
neither the result, nor what is said on the way, nor the files (`run_reads_outlines`).
-/

namespace MachineRbi.Job

variable {job : Job} {a b : Manifest}

section

variable [Stack]

/-- Runs over manifests of one source are the same if they list the same ids and every model that is
not excluded has the same outline in both. -/
theorem runOver_congr (hsource : a.source = b.source) (hids : a.modelIds = b.modelIds)
    (houtlines : ∀ modelId ∈ a.modelIds, modelId ∉ job.excluded → a.SameOutline b modelId)
    (workspace : Workspace) : job.runOver a workspace = job.runOver b workspace := by
  have hvisits := visitAll_congr houtlines hsource workspace
  unfold runOver
  rw [hvisits, hids]

/-- Runs over two accepted documents are the same, in their files, their notes and their result, if
the documents list the same ids in the same order and give every model that is not excluded the same
outline: no list of state machines in both, or lists that agree in order on the names and on the
scopes, events and states. -/
theorem run_reads_outlines {source : String} {document other : Value} (job : Job)
    (hdocument : Manifest.ofValue source document = .ok a)
    (hother : Manifest.ofValue source other = .ok b) (hids : a.modelIds = b.modelIds)
    (houtlines : ∀ modelId ∈ a.modelIds, modelId ∉ job.excluded → a.SameOutline b modelId) :
    ∃ first second, Registry.ofValue source document = .ok first ∧
      Registry.ofValue source other = .ok second ∧
      ∀ workspace, job.run first workspace = job.run second workspace := by
  refine ⟨⟨source, some a⟩, ⟨source, some b⟩, ?_, ?_, ?_⟩
  · rw [Registry.ofValue, hdocument]
    rfl
  · rw [Registry.ofValue, hother]
    rfl
  · intro workspace
    have hsource : a.source = b.source := by
      obtain ⟨models, -, rfl⟩ := Manifest.ofValue_eq_ok hdocument
      obtain ⟨others, -, rfl⟩ := Manifest.ofValue_eq_ok hother
      rfl
    have hruns := runOver_congr hsource hids houtlines workspace
    simp only [run, Registry.manifest, hruns]

/-- A document that lists a lamp, and a post whose state machine has a list for a body. -/
def lampAndPostDocument : Value :=
  .map [(.str "models", .map [
    (.str "Lamp", .map [(.str "state_machines", .map [
      (.str "default", .map [(.str "states", .list [.str "on", .str "off"])])])]),
    (.str "Post", .map [(.str "state_machines", .map [(.str "default", .list [.str "draft"])])])])]

/-- A document that says more about the same lamp, and nothing about the post. -/
def annotatedLampDocument : Value :=
  .map [(.str "version", .scalar (.int 2)), (.str "models", .map [
    (.str "Lamp", .map [(.str "table", .str "lamps"), (.str "state_machines", .map [
      (.str "default", .map [(.str "initial", .str "off"), (.str "events", .null),
        (.str "states", .list [.str "on", .str "off"])])])]),
    (.str "Post", .null)])]

end

open scoped Stack

/-- A run that excludes the post is the same over both documents, although one has no text for the
post and the other passes it over. -/
theorem run_reads_outlines_lampAndPost :
    let job : Job := { emitter := {}, outputDir := "rbi", excluded := ["Post"] }
    ∃ a b first second, Manifest.ofValue "models.yml" lampAndPostDocument = .ok a ∧
      Manifest.ofValue "models.yml" annotatedLampDocument = .ok b ∧
      job.compose a "Post" =
        .error (.complaint (.machineShape "models.yml" "Post" "default")) ∧
      b.isCapable "Post" = .ok false ∧
      Registry.ofValue "models.yml" lampAndPostDocument = .ok first ∧
      Registry.ofValue "models.yml" annotatedLampDocument = .ok second ∧
      ∀ workspace, job.run first workspace = job.run second workspace := by
  intro job
  have hids : ∀ modelId ∈ (["Lamp", "Post"] : List WideText), modelId ∉ job.excluded →
      modelId = "Lamp" := by decide
  obtain ⟨first, second, hfirst, hsecond, hruns⟩ := run_reads_outlines job
    (show Manifest.ofValue "models.yml" lampAndPostDocument = .ok _ from rfl)
    (show Manifest.ofValue "models.yml" annotatedLampDocument = .ok _ from rfl) rfl
    (fun modelId hmem hkept => by
      rw [hids modelId hmem hkept]
      rfl)
  exact ⟨_, _, first, second, rfl, rfl, rfl, rfl, hfirst, hsecond, hruns⟩

end MachineRbi.Job
