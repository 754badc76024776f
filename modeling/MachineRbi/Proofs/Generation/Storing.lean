import MachineRbi.Proofs.Files.Open
import MachineRbi.Proofs.Generation.Outcome

/-!
# Files that can be brought up to date

A file can be brought up to date if it can be put at the end of its path and what stands there can
be read. A text is stored in it unless too many directories are missing (`store_cases`). So a visit
to a model that is ready succeeds with an outcome that is foreseen from the files that it finds, or
it fails for these directories alone (`visit_cases_of_ready`).
-/

namespace MachineRbi.Job

open Workspace (Frame)

variable {job : Job} {manifest : Manifest} {workspace before after : Workspace} {path : Path}
  {text : String} {modelId : WideText} {outcome : Outcome} {directories files : Location → Prop}

/-! ## Files -/

/-- The text in what stands at a location, if it is a file. -/
def textOf : Option Entry → Except Failure (Option String)
  | some (.file bytes) =>
    match decodeText bytes with
    | some text => .ok (some (Text.unified text))
    | none => .error (.file .undecodable)
  | _ => .ok none

/-- The text that is found in a file is that of its bytes. -/
theorem currentText_of_holds {bytes : ByteArray} (hholds : workspace.Holds path bytes) :
    currentText workspace path = textOf (some (.file bytes)) := by
  have hfound := Workspace.holds_iff_entryAt.mp hholds
  cases hdecode : decodeText bytes with
  | some stored =>
      have hread : workspace.readText path = .ok (Text.unified stored) :=
        Workspace.readText_eq_ok_iff.mpr ⟨bytes, stored, hholds, hdecode, rfl⟩
      rw [currentText_eq_some_iff.mpr hread, textOf, hdecode]
  | none =>
      simp [currentText, textOf, Workspace.pathExists, Workspace.find?, Workspace.readText,
        Workspace.readBytes, hfound, hdecode, bind, Except.bind, pure, Except.pure, Except.map,
        Except.mapError, throw, throwThe, MonadExceptOf.throw]

/-- Where a file can be put, the text that is found is that of what stands there. -/
theorem currentText_of_open (hopen : workspace.Open path) (hclosed : workspace.tree.Closed)
    (hup : ".." ∉ path.names) :
    currentText workspace path = textOf (workspace.tree.entry? (workspace.destination path)) := by
  cases hentry : workspace.tree.entry? (workspace.destination path) with
  | none => exact currentText_eq_none_iff.mpr (hopen.pathExists_eq_false hclosed hup hentry)
  | some entry =>
      cases entry with
      | directory => exact (hopen.vacant hentry).elim
      | file bytes => exact currentText_of_holds (hopen.holds hclosed hup hentry)

variable [Stack]

/-- A text is stored where a file can be put exactly if not too many directories are missing, and
otherwise nothing changes. -/
theorem store_cases (hopen : workspace.Open path) (hclosed : workspace.tree.Closed)
    (hup : ".." ∉ path.names) (text : String) :
    (∃ after, store workspace path text = (after, .ok ()) ∧
        workspace.MissesAtMost Stack.missing path.parent) ∨
      store workspace path text = (workspace, .error (.file .tooDeep)) ∧
        ¬ workspace.MissesAtMost Stack.missing path.parent := by
  have hupParent := Path.up_not_mem_parent hup
  rcases Workspace.makeDirectories_cases hclosed hupParent
      (hopen.spelled.of_prefix (List.dropLast_prefix _)) hopen.clear with
    ⟨made, hmade, habove, hfew⟩ | ⟨hdeep, hmany⟩
  · have hframe := workspace.makeDirectories_frame path.parent true
    have hclosedMade := Workspace.makeDirectories_closed hclosed hupParent true
    rw [hmade] at hframe hclosedMade
    dsimp only at hframe hclosedMade
    have hopenMade : made.Open path := hopen.frame hframe (fun _ _ => id)
      (Workspace.not_onTheWay_destination hup hopen.named)
    have hreach : made.Reaches path := by
      refine Workspace.reaches_of_directory hclosedMade hup hopen.spelled ?_
      rw [Workspace.destination_eq_append hupParent, ← hframe.start_eq path.parent] at habove
      exact habove
    refine .inl ⟨made.set (made.destination path) (.file text.toUTF8), ?_, hfew⟩
    simp only [store, hmade, hopenMade.writeText hreach text]
  · refine .inr ⟨?_, hmany⟩
    simp only [store, hdeep]

/-- Work on a file changes it and the directories on the way to it only. -/
theorem store_frame (workspace : Workspace) (path : Path) (text : String) :
    Frame (workspace.OnTheWay path.parent) (· = workspace.destination path) workspace
      (store workspace path text).1 := by
  refine store_keeps (Workspace.kept_frame (fun _ => id) ?_) text (.refl workspace)
  exact rfl

/-- A file can be put wherever a text could be stored. -/
theorem open_of_store (hup : ".." ∉ path.names)
    (h : store workspace path text = (after, .ok ())) : workspace.Open path := by
  have hholds := store_holds h
  have hframe := store_frame workspace path text
  rw [h] at hframe
  refine (hholds.isOpen hup).of_frame hframe ?_ ?_
  · exact fun front hfront => Workspace.ne_destination_of_front hup hholds.2.1 hfront
  · exact Workspace.not_onTheWay_start (Path.up_not_mem_parent hup)

/-! ## Models whose files can be brought up to date -/

/-- The text of a model can be composed, a file can be put at its path, and what stands there can be
read. -/
structure Ready (job : Job) (manifest : Manifest) (workspace : Workspace) (modelId : WideText) :
    Prop where
  composed : ∃ set text, job.compose manifest modelId = .ok (set, text)
  isOpen : workspace.Open (job.targetPath modelId)
  legible : ∃ current?, currentText workspace (job.targetPath modelId) = .ok current?

/-- A model is ready if a visit that writes succeeds. -/
theorem ready_of_visit (hup : ".." ∉ (job.targetPath modelId).names) (hwrites : job.check = false)
    (hprocessed : job.isProcessed manifest modelId = true)
    (h : (job.visit manifest workspace modelId).result = .ok outcome) :
    job.Ready manifest workspace modelId := by
  rw [visit_of_isProcessed hprocessed] at h
  have hlegible := currentText_of_process h
  obtain ⟨set, text, hcompose, hcases⟩ := process_cases h
  refine ⟨⟨set, text, hcompose⟩, ?_, hlegible⟩
  rcases hcases with ⟨hread, -⟩ | ⟨-, hcheck, -⟩ | ⟨-, -, hstore, -⟩
  · obtain ⟨bytes, -, hholds, -⟩ := Workspace.readText_eq_ok_iff.mp hread
    exact hholds.isOpen hup
  · rw [hwrites] at hcheck
    cases hcheck
  · exact open_of_store hup hstore

/-- In an empty tree a model is ready and its file out of date if its text is composed and the path
can be spelled. -/
theorem ready_empty (hcompose : ∃ set text, job.compose manifest modelId = .ok (set, text))
    (hpath : job.targetPath modelId = path) (hup : ".." ∉ path.names) (hspelled : path.Spelled)
    (hnames : path.names ≠ []) :
    job.Ready manifest ⟨.empty, []⟩ modelId ∧ job.OutOfDate manifest ⟨.empty, []⟩ modelId := by
  have hopen := Workspace.open_empty hup hspelled hnames
  have hcurrent : currentText ⟨.empty, []⟩ path = .ok none := by
    rw [currentText_of_open hopen FileTree.closed_empty hup,
      Workspace.entry?_destination_empty hup hnames]
    rfl
  rw [← hpath] at hopen hcurrent
  refine ⟨⟨hcompose, hopen, none, hcurrent⟩, ?_⟩
  obtain ⟨set, text, hcomposed⟩ := hcompose
  exact outOfDate_iff.mpr ⟨set, text, none, hcomposed, hcurrent, by simp⟩

/-- A visit that may write and comes to a model that is ready succeeds, unless its file is out of
date and too many directories are missing on the way to it. -/
theorem visit_cases_of_ready (hready : job.Ready manifest workspace modelId)
    (hclosed : workspace.tree.Closed) (hup : ".." ∉ (job.targetPath modelId).names)
    (hwrites : job.check = false) (hprocessed : job.isProcessed manifest modelId = true) :
    ((∃ outcome, (job.visit manifest workspace modelId).result = .ok outcome) ∧
        (job.OutOfDate manifest workspace modelId →
          workspace.MissesAtMost Stack.missing (job.targetPath modelId).parent)) ∨
      (job.visit manifest workspace modelId).result = .error (.file .tooDeep) ∧
        ¬ workspace.MissesAtMost Stack.missing (job.targetPath modelId).parent := by
  obtain ⟨set, text, hcompose⟩ := hready.composed
  obtain ⟨current?, hcurrent⟩ := hready.legible
  rw [visit_of_isProcessed hprocessed, (process_of_compose hcompose).2, hwrites]
  unfold settle
  rw [hcurrent]
  dsimp only
  by_cases hsame : current? = some text
  · rw [if_pos hsame]
    refine .inl ⟨⟨_, rfl⟩, fun hstale => ?_⟩
    obtain ⟨set', text', current?', hcompose', hcurrent', hdiffers⟩ := outOfDate_iff.mp hstale
    cases hcompose.symm.trans hcompose'
    cases hcurrent.symm.trans hcurrent'
    exact (hdiffers hsame).elim
  · rw [if_neg hsame, if_neg Bool.false_ne_true]
    rcases store_cases hready.isOpen hclosed hup text with ⟨after, hstore, hfew⟩ | ⟨hstore, hmany⟩
    · rw [hstore]
      exact .inl ⟨⟨_, rfl⟩, fun _ => hfew⟩
    · rw [hstore]
      exact .inr ⟨rfl, hmany⟩

/-! ## Outcomes that are foreseen -/

/-- The outcome that the files foretell for a model: unchanged if the text that is made for it
stands in its file, and written if another text or nothing does. -/
def foreseen (job : Job) (manifest : Manifest) (workspace : Workspace) (modelId : WideText) :
    Outcome :=
  match job.isProcessed manifest modelId, job.compose manifest modelId,
      currentText workspace (job.targetPath modelId) with
  | true, .ok (set, text), .ok current? =>
    job.processedOutcome modelId set (if current? = some text then .unchanged else .written)
  | _, _, _ => ⟨modelId, .skipped, none, 0, job.skipReason modelId⟩

/-- The outcome of a visit that writes is foreseen from the files that it finds. -/
theorem eq_foreseen_of_visit (hwrites : job.check = false) (hmem : modelId ∈ manifest.modelIds)
    (h : (job.visit manifest workspace modelId).result = .ok outcome) :
    outcome = job.foreseen manifest workspace modelId := by
  unfold foreseen
  cases hcase : job.isProcessed manifest modelId with
  | false =>
      rw [visit_result_of_not_isProcessed hmem hcase] at h
      cases h
      rfl
  | true =>
      rw [visit_of_isProcessed hcase] at h
      obtain ⟨current?, hcurrent⟩ := currentText_of_process h
      obtain ⟨set, text, hcompose, hcases⟩ := process_cases h
      rw [hcompose, hcurrent]
      dsimp only
      have hread : workspace.readText (job.targetPath modelId) = .ok text ↔
          current? = some text := by
        rw [← currentText_eq_some_iff, hcurrent, Except.ok.injEq]
      rcases hcases with ⟨hsame, -, rfl⟩ | ⟨-, hcheck, -⟩ | ⟨hdiffers, -, -, rfl⟩
      · rw [if_pos (hread.mp hsame)]
      · rw [hwrites] at hcheck
        cases hcheck
      · rw [if_neg (fun hsame => hdiffers (hread.mpr hsame))]

end MachineRbi.Job
