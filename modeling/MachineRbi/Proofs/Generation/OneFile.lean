import Mathlib.Control.Monad.Basic
import Mathlib.Data.List.Nodup
import Mathlib.Data.List.Pairwise
import MachineRbi.Proofs.Generation.Composition
import MachineRbi.Proofs.Generation.Outcome
import MachineRbi.Proofs.Generation.Target
import MachineRbi.Proofs.Manifest
import MachineRbi.Proofs.Rbi.Decoding

/-!
# One file for each model

The stem of an id drops the case of its letters, and an underscore that it adds may be there
already. So two models can share a file, and then the later one overwrites the file of the earlier.
`oneFilePerModel_iff` says for which ids each model has a file of its own.
-/

namespace MachineRbi.Job

variable {job : Job} {manifest : Manifest} {workspace after : Workspace} {registry : Registry}
  {modelId other : WideText} {modelIds : List WideText} {outcomes : List Outcome} {report : Report}

/-! ## Sharing -/

section

variable [Stack]

/-- Two models whose texts are stored in the same file are the same model. -/
theorem eq_of_stored (h : job.Stored manifest workspace modelId)
    (hother : job.Stored manifest workspace other)
    (hsame : workspace.destination (job.targetPath modelId) =
      workspace.destination (job.targetPath other)) : modelId = other := by
  obtain ⟨set, text, hcompose, hread⟩ := h
  obtain ⟨set', text', hcompose', hread'⟩ := hother
  obtain ⟨bytes, stored, ⟨-, -, hentry⟩, hdecode, htext⟩ :=
    Workspace.readText_eq_ok_iff.mp hread
  obtain ⟨bytes', stored', ⟨-, -, hentry'⟩, hdecode', htext'⟩ :=
    Workspace.readText_eq_ok_iff.mp hread'
  -- One file has one text, and the header of that tells the id.
  rw [hsame, hentry'] at hentry
  cases hentry
  rw [hdecode'] at hdecode
  cases hdecode
  obtain ⟨hinspect, hemit⟩ := compose_eq_ok_iff.mp hcompose
  obtain ⟨hinspect', hemit'⟩ := compose_eq_ok_iff.mp hcompose'
  have hids := Rbi.modelId_eq_of_unified hemit hemit' (htext.trans htext'.symm)
  obtain ⟨machines, rfl⟩ := Manifest.inspect_eq_ok hinspect
  obtain ⟨machines', rfl⟩ := Manifest.inspect_eq_ok hinspect'
  exact hids

/-! ## Writing once -/

/-- The outcomes of a run are those of its models in order, and only of models that it processes are
files written. -/
theorem written_sublist
    (hlisted : ∀ modelId ∈ modelIds, modelId ∈ manifest.modelIds)
    (h : (job.visitAll manifest workspace modelIds).result = .ok outcomes) :
    ((outcomes.filter (·.status = .written)).map (·.modelId)).Sublist
      (modelIds.filter (job.isProcessed manifest)) := by
  induction modelIds generalizing workspace outcomes with
  | nil =>
      cases h
      exact List.Sublist.refl _
  | cons modelId rest ih =>
      obtain ⟨outcome, others, hfirst, hothers, rfl, -⟩ := visitAll_cons_eq_ok h
      have hrest := ih (fun other hmem => hlisted other (List.mem_cons_of_mem _ hmem)) hothers
      cases hcase : job.isProcessed manifest modelId with
      | false =>
          rw [visit_result_of_not_isProcessed (hlisted modelId List.mem_cons_self) hcase] at hfirst
          cases hfirst
          rw [List.filter_cons_of_neg (by simp), List.filter_cons_of_neg (by simp [hcase])]
          exact hrest
      | true =>
          have hid : outcome.modelId = modelId := by
            rw [visit_of_isProcessed hcase] at hfirst
            obtain ⟨set, text, -, ⟨-, -, rfl⟩ | ⟨-, -, -, rfl⟩ | ⟨-, -, -, rfl⟩⟩ :=
              process_cases hfirst <;> rfl
          rw [List.filter_cons_of_pos hcase, List.filter_cons]
          split
          · rw [List.map_cons, hid]
            exact hrest.cons_cons modelId
          · exact hrest.cons modelId

/-! ## Files of their own -/

/-- Each model has a file of its own: different models have different files, no file is written
twice, and after the run each file reads as the text of its model, but for line ends. -/
structure OneFilePerModel (job : Job) (manifest : Manifest) (workspace after : Workspace)
    (report : Report) : Prop where
  apart : ∀ a ∈ job.processedIds manifest, ∀ b ∈ job.processedIds manifest, a ≠ b →
    workspace.destination (job.targetPath a) ≠ workspace.destination (job.targetPath b)
  once : ((report.withStatus .written).map fun outcome =>
    workspace.destination (job.targetPath outcome.modelId)).Nodup
  own : ∀ modelId ∈ job.processedIds manifest, job.Stored manifest after modelId

/-- Two ids have files apart: their stems differ, or if one of them starts with double colons and
the other does not, the ways from the root and from the output directory do. -/
def StemsApart (job : Job) (workspace : Workspace) (a b : WideText) : Prop :=
  if Underscore.isRooted a = Underscore.isRooted b then underscore a.shown ≠ underscore b.shown
  else workspace.destination (job.targetPath a) ≠ workspace.destination (job.targetPath b)

omit [Stack] in
/-- Of accepted ids the stems tell whether they have the same file. -/
theorem stemsApart_iff (h : Rbi.isConstantPath modelId = true)
    (hother : Rbi.isConstantPath other = true) :
    job.StemsApart workspace modelId other ↔
      workspace.destination (job.targetPath modelId) ≠
        workspace.destination (job.targetPath other) := by
  unfold StemsApart
  split
  next hrooted => exact not_congr (destination_targetPath_eq_iff h hother hrooted).symm
  next => exact Iff.rfl

/-- If different models have different files, no two visits of a run write the same file. -/
theorem once_of_apart (job : Job) (hapart : job.TargetsApart manifest workspace)
    (h : (job.visitAll manifest workspace manifest.modelIds).result = .ok report.outcomes) :
    ((report.withStatus .written).map fun outcome =>
      workspace.destination (job.targetPath outcome.modelId)).Nodup := by
  have hwritten := hapart.sublist (written_sublist (fun _ => id) h)
  rw [List.pairwise_map] at hwritten
  exact List.pairwise_map.mpr hwritten

omit [Stack] in
/-- If every id is there once and accepted, different models have different files exactly if their
stems are apart. -/
theorem targetsApart_iff (workspace : Workspace) (hnodup : manifest.modelIds.Nodup)
    (hpath : ∀ modelId ∈ job.processedIds manifest, Rbi.isConstantPath modelId = true) :
    job.TargetsApart manifest workspace ↔
      ∀ a ∈ job.processedIds manifest, ∀ b ∈ job.processedIds manifest, a ≠ b →
        job.StemsApart workspace a b := by
  constructor
  · intro hapart a ha b hb hne
    refine (stemsApart_iff (hpath a ha) (hpath b hb)).mpr ?_
    have hsymm : Std.Symm fun a b : WideText =>
        workspace.destination (job.targetPath a) ≠ workspace.destination (job.targetPath b) :=
      ⟨fun _ _ => Ne.symm⟩
    exact hapart.forall ha hb hne
  · intro hstems
    refine (hnodup.filter _).pairwise_of_forall_ne fun a ha b hb hne => ?_
    exact (stemsApart_iff (hpath a ha) (hpath b hb)).mp (hstems a ha b hb hne)

/-- After a run that completes each model has a file of its own exactly if different ids have stems
apart, and as soon as two ids do not, the file of some model is not its own. -/
theorem oneFilePerModel_iff {source : String} {document : Value}
    (hdocument : Manifest.ofValue source document = .ok manifest)
    (hmanifest : registry.manifest workspace = .ok manifest)
    (hrun : (job.generating.run registry workspace).result = .ok report) :
    let after := (job.generating.run registry workspace).workspace
    let apart := ∀ a ∈ job.processedIds manifest, ∀ b ∈ job.processedIds manifest, a ≠ b →
      job.StemsApart workspace a b
    (job.OneFilePerModel manifest workspace after report ↔ apart) ∧
      ((∀ modelId ∈ job.processedIds manifest, job.Stored manifest after modelId) ↔ apart) := by
  intro after apart
  have hvisits := (run_result_eq_ok_iff hmanifest).mp hrun
  have hafter : after = (job.generating.visitAll manifest workspace manifest.modelIds).workspace :=
    run_workspace hmanifest
  have hpath : ∀ modelId ∈ job.processedIds manifest, Rbi.isConstantPath modelId = true := by
    intro modelId hmem
    obtain ⟨hlisted, hprocessed⟩ := List.mem_filter.mp hmem
    obtain ⟨set, text, hcompose⟩ := compose_of_visitAll hvisits modelId hlisted hprocessed
    exact isConstantPath_of_compose hcompose
  have hstems := targetsApart_iff workspace (Manifest.nodup_modelIds hdocument) hpath
  have hown : apart → ∀ modelId ∈ job.processedIds manifest,
      job.Stored manifest after modelId := by
    intro hapart modelId hmem
    obtain ⟨hlisted, hprocessed⟩ := List.mem_filter.mp hmem
    rw [hafter]
    exact stored_of_visitAll job.generating rfl (hstems.mpr hapart) hvisits modelId hlisted
      hprocessed
  have hback : (∀ modelId ∈ job.processedIds manifest, job.Stored manifest after modelId) →
      apart := by
    intro hstored a ha b hb hne
    refine (stemsApart_iff (hpath a ha) (hpath b hb)).mpr fun hsame => hne ?_
    -- A run moves no path, so models that share a file before it share it afterwards.
    have hframe := job.generating.visitAll_frame manifest workspace manifest.modelIds
    rw [← hafter] at hframe
    refine eq_of_stored (hstored a ha) (hstored b hb) ?_
    rw [hframe.destination_eq, hframe.destination_eq, hsame]
  refine ⟨⟨fun h => hback h.own, fun hapart => ⟨?_, ?_, hown hapart⟩⟩, hback, hown⟩
  · exact fun a ha b hb hne => (stemsApart_iff (hpath a ha) (hpath b hb)).mp (hapart a ha b hb hne)
  · exact once_of_apart job.generating (hstems.mpr hapart) hvisits

/-- A document that lists two models with empty lists of state machines. -/
def pairDocument (first second : WideText) : Value :=
  .map [(.str "models", .map [(.str first, .map [(.str "state_machines", .map [])]),
    (.str second, .map [(.str "state_machines", .map [])])])]

/-- The manifest of two models with empty lists of state machines. -/
def pairManifest (first second : WideText) : Manifest :=
  ⟨"models.yml", [⟨first, some []⟩, ⟨second, some []⟩]⟩

end

open scoped Stack

/-- A parser for HTML and one for XML each have a file of their own. -/
theorem oneFilePerModel_iff_parsers :
    let job : Job := { emitter := {}, outputDir := "rbi", excluded := [] }
    let manifest := pairManifest "HTMLParser" "XMLParser"
    let run := job.generating.run ⟨"models.yml", some manifest⟩ ⟨.empty, []⟩
    ∃ report, run.result = .ok report ∧
      job.OneFilePerModel manifest ⟨.empty, []⟩ run.workspace report := by
  intro job manifest run
  have hdocument :
      Manifest.ofValue "models.yml" (pairDocument "HTMLParser" "XMLParser") = .ok manifest := rfl
  have hrun : run.result = .ok ⟨[⟨"HTMLParser", .written, some "rbi/html_parser.rbi", 0, ""⟩,
      ⟨"XMLParser", .written, some "rbi/xml_parser.rbi", 0, ""⟩]⟩ := by
    decide +kernel
  have hapart : ∀ a ∈ job.processedIds manifest, ∀ b ∈ job.processedIds manifest, a ≠ b →
      job.StemsApart ⟨.empty, []⟩ a b := by
    unfold StemsApart
    decide +kernel
  have hmanifest :
      Registry.manifest ⟨"models.yml", some manifest⟩ ⟨.empty, []⟩ = .ok manifest := rfl
  exact ⟨_, hrun, (oneFilePerModel_iff hdocument hmanifest hrun).1.mpr hapart⟩

/-- Two parsers whose names differ in the case of letters share a file: a run over them completes,
and the file of the first is not its own. -/
theorem not_oneFilePerModel_parsers :
    let job : Job := { emitter := {}, outputDir := "rbi", excluded := [] }
    let manifest := pairManifest "HTMLParser" "HtmlParser"
    let run := job.generating.run ⟨"models.yml", some manifest⟩ ⟨.empty, []⟩
    Manifest.ofValue "models.yml" (pairDocument "HTMLParser" "HtmlParser") = .ok manifest ∧
      ∃ report, run.result = .ok report ∧
        ¬ job.OneFilePerModel manifest ⟨.empty, []⟩ run.workspace report := by
  intro job manifest run
  have hdocument :
      Manifest.ofValue "models.yml" (pairDocument "HTMLParser" "HtmlParser") = .ok manifest := rfl
  have hrun : run.result = .ok ⟨[⟨"HTMLParser", .written, some "rbi/html_parser.rbi", 0, ""⟩,
      ⟨"HtmlParser", .written, some "rbi/html_parser.rbi", 0, ""⟩]⟩ := by
    decide +kernel
  refine ⟨hdocument, _, hrun, fun h => ?_⟩
  have hids : ("HTMLParser" : WideText) ∈ job.processedIds manifest ∧
      ("HtmlParser" : WideText) ∈ job.processedIds manifest := by decide +kernel
  have hstems : underscore (WideText.ofString "HTMLParser").shown =
      underscore (WideText.ofString "HtmlParser").shown := by decide +kernel
  refine h.apart _ hids.1 _ hids.2 (by decide) ?_
  exact (destination_targetPath_eq_iff (by decide) (by decide) (by decide)).mpr hstems

end MachineRbi.Job
