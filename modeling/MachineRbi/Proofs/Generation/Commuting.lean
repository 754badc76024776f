import MachineRbi.Proofs.Generation.Storing
import MachineRbi.Proofs.Generation.Turn

/-!
# Visits that do not touch each other

If the paths of two files are apart, a visit to the model of the one finds the same text in its file
whether or not the other has been visited, and can succeed in the same cases (`ready_iff`). So what
a run makes of each model is foreseen from the files that it starts with
(`visitAll_cases_of_ready`), and so is what it leaves behind (`Completes`), in whatever order it
comes to the models.
-/

namespace MachineRbi.Job

open Workspace (Frame)

variable {job : Job} {manifest : Manifest} {workspace before after : Workspace}
  {modelId other : WideText} {modelIds rest : List WideText} {outcome : Outcome}
  {outcomes : List Outcome} {directories files : Location → Prop}

/-! ## Changes elsewhere -/

section Spared

variable (hframe : Frame directories files before after)
  (hspared : before.Spared directories files (job.targetPath modelId))
  (hclosed : before.tree.Closed) (hclosedAfter : after.tree.Closed)
  (hup : ".." ∉ (job.targetPath modelId).names)
include hframe hspared hclosed hclosedAfter hup

variable [Stack]

/-- Changes that spare the file of a model that is ready leave its text as it is. -/
theorem currentText_eq_of_spared (hready : job.Ready manifest before modelId) :
    currentText after (job.targetPath modelId) = currentText before (job.targetPath modelId) := by
  have hopen := (hframe.open_iff hspared).mpr hready.isOpen
  rw [currentText_of_open hready.isOpen hclosed hup, currentText_of_open hopen hclosedAfter hup,
    hframe.destination_eq, hframe.entry_destination hspared hup]

/-- After changes that spare the file of a model it is ready exactly if it was before. -/
theorem ready_iff : job.Ready manifest after modelId ↔ job.Ready manifest before modelId := by
  constructor
  · intro hready
    have hopen := (hframe.open_iff hspared).mp hready.isOpen
    refine ⟨hready.composed, hopen, ?_⟩
    rw [currentText_of_open hopen hclosed hup, ← hframe.entry_destination hspared hup,
      ← hframe.destination_eq, ← currentText_of_open hready.isOpen hclosedAfter hup]
    exact hready.legible
  · intro hready
    refine ⟨hready.composed, (hframe.open_iff hspared).mpr hready.isOpen, ?_⟩
    rw [currentText_eq_of_spared hframe hspared hclosed hclosedAfter hup hready]
    exact hready.legible

/-- Changes that spare the file of a model that is ready do not change its outcome. -/
theorem foreseen_eq_of_spared (hready : job.Ready manifest before modelId) :
    job.foreseen manifest after modelId = job.foreseen manifest before modelId := by
  unfold foreseen
  rw [currentText_eq_of_spared hframe hspared hclosed hclosedAfter hup hready]

/-- Changes that spare the file of a model that is ready leave it to be rewritten, or not. -/
theorem rewrites_iff_of_spared (hready : job.Ready manifest before modelId) :
    job.Rewrites manifest after modelId ↔ job.Rewrites manifest before modelId := by
  unfold Rewrites
  rw [outOfDate_iff, outOfDate_iff,
    currentText_eq_of_spared hframe hspared hclosed hclosedAfter hup hready]

end Spared

/-! ## Files apart -/

/-- The files of the models that a job processes are apart, and no path to them leads up. -/
structure FilesApart (job : Job) (manifest : Manifest) (modelIds : List WideText) : Prop where
  up_not_mem : ∀ modelId ∈ modelIds, job.isProcessed manifest modelId = true →
    ".." ∉ (job.targetPath modelId).names
  apart : (modelIds.filter (job.isProcessed manifest)).Pairwise fun a b =>
    (job.targetPath a).Apart (job.targetPath b)

/-- Among fewer models files stay apart. -/
theorem FilesApart.tail (h : job.FilesApart manifest (modelId :: rest)) :
    job.FilesApart manifest rest :=
  ⟨fun other hmem => h.up_not_mem other (List.mem_cons_of_mem _ hmem),
    h.apart.sublist ((List.sublist_cons_self modelId rest).filter _)⟩

/-- A visit spares the files of the models behind its own. -/
theorem FilesApart.spared (h : job.FilesApart manifest (modelId :: rest)) (workspace : Workspace)
    (hmem : other ∈ rest) (hother : job.isProcessed manifest other = true) :
    workspace.Spared
      (fun location => job.isProcessed manifest modelId = true ∧
        workspace.OnTheWay (job.targetPath modelId).parent location)
      (fun location => job.isProcessed manifest modelId = true ∧
        location = workspace.destination (job.targetPath modelId))
      (job.targetPath other) := by
  cases hcase : job.isProcessed manifest modelId with
  | false => exact ⟨fun _ _ hat => by simp at hat, fun hat => by simp at hat,
      fun hat => by simp at hat⟩
  | true =>
      have hapart := h.apart
      rw [List.filter_cons_of_pos hcase, List.pairwise_cons] at hapart
      have hpaths := hapart.1 other (List.mem_filter.mpr ⟨hmem, hother⟩)
      exact (hpaths.spared (h.up_not_mem modelId List.mem_cons_self hcase)
        (h.up_not_mem other (List.mem_cons_of_mem _ hmem) hother) workspace).mono
        (fun _ hat => hat.2) (fun _ hat => hat.2)

variable [Stack]

/-- A visit keeps a tree closed if the path to its file does not lead up. -/
theorem FilesApart.closed (h : job.FilesApart manifest (modelId :: rest))
    (hclosed : workspace.tree.Closed) :
    (job.visit manifest workspace modelId).workspace.tree.Closed :=
  visit_keeps (fun hprocessed => Workspace.kept_tree_closed
    (h.up_not_mem modelId List.mem_cons_self hprocessed)) hclosed

/-- A visit to another model changes neither the outcome that is foreseen for a model, nor whether
its file is to be rewritten. -/
theorem FilesApart.foreseen_eq (h : job.FilesApart manifest (modelId :: rest))
    (hclosed : workspace.tree.Closed) (hmem : other ∈ rest)
    (hready : job.isProcessed manifest other = true → job.Ready manifest workspace other) :
    job.foreseen manifest (job.visit manifest workspace modelId).workspace other =
        job.foreseen manifest workspace other ∧
      (job.Rewrites manifest (job.visit manifest workspace modelId).workspace other ↔
        job.Rewrites manifest workspace other) := by
  cases hcase : job.isProcessed manifest other with
  | false => simp [foreseen, Rewrites, hcase]
  | true =>
      have hframe := job.visit_frame manifest workspace modelId
      have hspared := h.spared workspace hmem hcase
      have hup := h.up_not_mem other (List.mem_cons_of_mem _ hmem) hcase
      exact ⟨foreseen_eq_of_spared hframe hspared hclosed (h.closed hclosed) hup (hready hcase),
        rewrites_iff_of_spared hframe hspared hclosed (h.closed hclosed) hup (hready hcase)⟩

/-! ## Runs -/

/-- All models that a run processes without failure are ready when it starts. -/
theorem ready_of_visitAll (hwrites : job.check = false) (hclosed : workspace.tree.Closed)
    (hapart : job.FilesApart manifest modelIds)
    (h : (job.visitAll manifest workspace modelIds).result = .ok outcomes) :
    ∀ modelId ∈ modelIds, job.isProcessed manifest modelId = true →
      job.Ready manifest workspace modelId := by
  induction modelIds generalizing workspace outcomes with
  | nil => simp
  | cons modelId rest ih =>
      obtain ⟨outcome, others, hfirst, hothers, -, -⟩ := visitAll_cons_eq_ok h
      have hclosedAfter := hapart.closed hclosed
      have hrest := ih hclosedAfter hapart.tail hothers
      intro other hmem hprocessed
      have hup := hapart.up_not_mem other hmem hprocessed
      rcases List.mem_cons.mp hmem with rfl | hmem
      · exact ready_of_visit hup hwrites hprocessed hfirst
      · exact (ready_iff (job.visit_frame manifest workspace modelId)
          (hapart.spared workspace hmem hprocessed) hclosed hclosedAfter hup).mp
          (hrest other hmem hprocessed)

/-- What a run over these models has done when it completes: the files that were out of date before
hold the texts that are made for their models, and nothing else has changed but on the way to
them. -/
structure Completes (job : Job) (manifest : Manifest) (modelIds : List WideText)
    (before after : Workspace) : Prop where
  frame : Frame
    (job.OnTheWayTo before fun modelId => modelId ∈ modelIds ∧ job.Rewrites manifest before modelId)
    (job.FileOf before fun modelId => modelId ∈ modelIds ∧ job.Rewrites manifest before modelId)
    before after
  stored : ∀ modelId ∈ modelIds, job.Rewrites manifest before modelId →
    ∃ set text, job.compose manifest modelId = .ok (set, text) ∧
      after.Holds (job.targetPath modelId) text.toUTF8

/-- A visit that succeeds and rewrites a file leaves the text of its model in it. -/
theorem holds_of_visit (h : (job.visit manifest workspace modelId).result = .ok outcome)
    (hrewrites : job.Rewrites manifest workspace modelId) :
    ∃ set text, job.compose manifest modelId = .ok (set, text) ∧
      (job.visit manifest workspace modelId).workspace.Holds (job.targetPath modelId)
        text.toUTF8 := by
  obtain ⟨hwrites, hprocessed, hstale⟩ := hrewrites
  rw [visit_of_isProcessed hprocessed] at h ⊢
  obtain ⟨set, text, hcompose, ⟨hread, -⟩ | ⟨-, hcheck, -⟩ | ⟨-, -, hstore, -⟩⟩ := process_cases h
  · exact ((outOfDate_iff_not_upToDate h).mp hstale ⟨set, text, hcompose, hread⟩).elim
  · rw [hwrites] at hcheck
    cases hcheck
  · exact ⟨set, text, hcompose, store_holds hstore⟩

/-- A run completes with its first visit if the run over the others does and the first visit does
not tell which files that rewrites. -/
theorem Completes.cons (hapart : job.FilesApart manifest (modelId :: rest))
    (hfirst : (job.visit manifest workspace modelId).result = .ok outcome)
    (hsame : ∀ other ∈ rest,
      job.Rewrites manifest (job.visit manifest workspace modelId).workspace other ↔
        job.Rewrites manifest workspace other)
    (hrest : job.Completes manifest rest (job.visit manifest workspace modelId).workspace after) :
    job.Completes manifest (modelId :: rest) workspace after := by
  have hvisit := job.visit_frame_of_rewrites manifest workspace modelId
  refine ⟨(hvisit.mono ?_ ?_).trans (hrest.frame.mono ?_ ?_), ?_⟩
  · rintro location ⟨hrewrites, hway⟩
    exact ⟨modelId, ⟨List.mem_cons_self, hrewrites⟩, hway⟩
  · rintro location ⟨hrewrites, hat⟩
    exact ⟨modelId, ⟨List.mem_cons_self, hrewrites⟩, hat⟩
  · rintro location ⟨other, ⟨hmem, hrewrites⟩, front, hsome, hfront, hat⟩
    exact ⟨other, ⟨List.mem_cons_of_mem _ hmem, (hsame other hmem).mp hrewrites⟩, front, hsome,
      hfront, hat.trans (hvisit.destination_eq _)⟩
  · rintro location ⟨other, ⟨hmem, hrewrites⟩, hat⟩
    exact ⟨other, ⟨List.mem_cons_of_mem _ hmem, (hsame other hmem).mp hrewrites⟩,
      hat.trans (hvisit.destination_eq _)⟩
  · intro other hmem hrewrites
    rcases List.mem_cons.mp hmem with rfl | hmem
    · obtain ⟨set, text, hcompose, hholds⟩ := holds_of_visit hfirst hrewrites
      refine ⟨set, text, hcompose, hrest.frame.holds ?_ hholds⟩
      rintro ⟨later, ⟨hlater, hrewritesLater⟩, hat⟩
      have hspared := hapart.spared workspace hlater hrewritesLater.2.1
      rw [hvisit.destination_eq, hvisit.destination_eq, Workspace.destination_eq_append
        (hapart.up_not_mem later (List.mem_cons_of_mem _ hlater) hrewritesLater.2.1)] at hat
      exact hspared.file _ List.prefix_rfl ⟨hrewrites.2.1, hat.symm⟩
    · exact hrest.stored other hmem ((hsame other hmem).mpr hrewrites)

/-- A visit succeeds if its model is ready or passed over, unless too many directories are missing
on the way to the file. -/
theorem FilesApart.visit_cases (h : job.FilesApart manifest (modelId :: rest))
    (hwrites : job.check = false) (hmem : modelId ∈ manifest.modelIds)
    (hclosed : workspace.tree.Closed)
    (hready : job.isProcessed manifest modelId = true → job.Ready manifest workspace modelId) :
    (∃ outcome, (job.visit manifest workspace modelId).result = .ok outcome) ∨
      (job.visit manifest workspace modelId).result = .error (.file .tooDeep) ∧
        job.isProcessed manifest modelId = true ∧
        ¬ workspace.MissesAtMost Stack.missing (job.targetPath modelId).parent := by
  cases hcase : job.isProcessed manifest modelId with
  | false => exact .inl ⟨_, visit_result_of_not_isProcessed hmem hcase⟩
  | true =>
      have hup := h.up_not_mem modelId List.mem_cons_self hcase
      refine (visit_cases_of_ready (hready hcase) hclosed hup hwrites hcase).imp And.left ?_
      exact fun ⟨hdeep, hmany⟩ => ⟨hdeep, rfl, hmany⟩

/-- A run over models that are ready completes with the outcomes that are foreseen, unless too many
directories are missing on the way to the file of one of them. -/
theorem visitAll_cases_of_ready (hwrites : job.check = false)
    (hlisted : ∀ modelId ∈ modelIds, modelId ∈ manifest.modelIds)
    (hclosed : workspace.tree.Closed) (hapart : job.FilesApart manifest modelIds)
    (hready : ∀ modelId ∈ modelIds, job.isProcessed manifest modelId = true →
      job.Ready manifest workspace modelId) :
    ((job.visitAll manifest workspace modelIds).result =
          .ok (modelIds.map (job.foreseen manifest workspace)) ∧
        job.Completes manifest modelIds workspace
          (job.visitAll manifest workspace modelIds).workspace) ∨
      (job.visitAll manifest workspace modelIds).result = .error (.file .tooDeep) ∧
        ∃ modelId ∈ modelIds, job.isProcessed manifest modelId = true ∧
          ¬ workspace.MissesAtMost Stack.missing (job.targetPath modelId).parent := by
  induction modelIds generalizing workspace with
  | nil => exact .inl ⟨rfl, .refl workspace, by simp⟩
  | cons modelId rest ih =>
      have hmem := hlisted modelId List.mem_cons_self
      have hvisit := hapart.visit_cases hwrites hmem hclosed (hready modelId List.mem_cons_self)
      rcases hvisit with ⟨outcome, hfirst⟩ | ⟨hdeep, hprocessed, hmany⟩
      · have hframe := job.visit_frame manifest workspace modelId
        have hclosedAfter := hapart.closed hclosed
        have hreadyAfter : ∀ other ∈ rest, job.isProcessed manifest other = true →
            job.Ready manifest (job.visit manifest workspace modelId).workspace other := by
          intro other hother hprocessed
          have hother' := List.mem_cons_of_mem modelId hother
          exact (ready_iff hframe (hapart.spared workspace hother hprocessed) hclosed hclosedAfter
            (hapart.up_not_mem other hother' hprocessed)).mpr (hready other hother' hprocessed)
        rcases ih (fun other hother => hlisted other (List.mem_cons_of_mem _ hother)) hclosedAfter
          hapart.tail hreadyAfter with ⟨hothers, hrest⟩ | ⟨hdeep, other, hother, hprocessed, hmany⟩
        · obtain ⟨hresult, hworkspace⟩ := visitAll_cons_of_ok hfirst hothers
          have hkept : ∀ other ∈ rest, _ := fun other hother =>
            hapart.foreseen_eq hclosed hother (hready other (List.mem_cons_of_mem _ hother))
          refine .inl ⟨?_, ?_⟩
          · rw [hresult, eq_foreseen_of_visit hwrites hmem hfirst, List.map_cons,
              List.map_congr_left fun other hother => (hkept other hother).1]
          · rw [hworkspace]
            exact hrest.cons hapart hfirst fun other hother => (hkept other hother).2
        · refine .inr ⟨?_, other, List.mem_cons_of_mem _ hother, hprocessed, fun hfew => ?_⟩
          · simp only [visitAll, hfirst, hdeep, Except.map]
          · exact hmany (hfew.frame hframe)
      · refine .inr ⟨?_, modelId, List.mem_cons_self, hprocessed, hmany⟩
        simp only [visitAll, hdeep]

/-- A run stops at once if too many directories are missing on the way to the first file. -/
theorem visitAll_eq_tooDeep (hready : job.Ready manifest workspace modelId)
    (hclosed : workspace.tree.Closed) (hup : ".." ∉ (job.targetPath modelId).names)
    (hrewrites : job.Rewrites manifest workspace modelId)
    (hmany : ¬ workspace.MissesAtMost Stack.missing (job.targetPath modelId).parent)
    (rest : List WideText) :
    (job.visitAll manifest workspace (modelId :: rest)).result = .error (.file .tooDeep) := by
  obtain ⟨hwrites, hprocessed, hstale⟩ := hrewrites
  rcases visit_cases_of_ready hready hclosed hup hwrites hprocessed with ⟨-, hfew⟩ | ⟨hdeep, -⟩
  · exact (hmany (hfew hstale)).elim
  · simp only [visitAll, hdeep]

/-- A run over two models completes if the directories on the way to the first file can be made, and
after them those that are still missing on the way to the second. -/
theorem visitAll_pair {first second : WideText} (hclosed : workspace.tree.Closed)
    (hapart : job.FilesApart manifest [first, second])
    (hready : job.Ready manifest workspace first)
    (hreadySecond : job.Ready manifest workspace second)
    (hrewrites : job.Rewrites manifest workspace first)
    (hprocessed : job.isProcessed manifest second = true)
    (hfew : workspace.MissesAtMost Stack.missing (job.targetPath first).parent)
    (hanchor : (job.targetPath first).anchor = (job.targetPath second).anchor)
    (hshared : (job.targetPath second).parent.names.take
      ((job.targetPath second).parent.names.length - Stack.missing) <+:
        (job.targetPath first).parent.names) :
    ∃ outcomes, (job.visitAll manifest workspace [first, second]).result = .ok outcomes := by
  have hwrites := hrewrites.1
  have hup := hapart.up_not_mem first List.mem_cons_self hrewrites.2.1
  have hupSecond := hapart.up_not_mem second (by simp) hprocessed
  have hclosedAfter := hapart.closed hclosed
  rcases visit_cases_of_ready hready hclosed hup hwrites hrewrites.2.1 with
    ⟨⟨outcome, hfirst⟩, -⟩ | ⟨-, hmany⟩
  · have hreadyAfter := (ready_iff (job.visit_frame manifest workspace first)
      (hapart.spared workspace List.mem_cons_self hprocessed) hclosed hclosedAfter
      hupSecond).mpr hreadySecond
    -- The first visit has made what the two ways share.
    have hfewAfter : (job.visit manifest workspace first).workspace.MissesAtMost
        Stack.missing (job.targetPath second).parent := by
      obtain ⟨set, text, -, hreach, hnames, -⟩ := holds_of_visit hfirst hrewrites
      exact Workspace.missesAtMost_of_reaches hreach hup hnames hanchor
        (Path.up_not_mem_parent hupSecond) hshared
    rcases visit_cases_of_ready hreadyAfter hclosedAfter hupSecond hwrites hprocessed with
      ⟨⟨later, hsecond⟩, -⟩ | ⟨-, hmany⟩
    · have hlast : (job.visitAll manifest (job.visit manifest workspace first).workspace
          [second]).result = .ok [later] := (visitAll_cons_of_ok hsecond rfl).1
      exact ⟨_, (visitAll_cons_of_ok hfirst hlast).1⟩
    · exact (hmany hfewAfter).elim
  · exact (hmany hfew).elim

/-! ## What is left behind -/

/-- The locations on the way to a file that was rewritten are directories. -/
theorem Completes.directory (h : job.Completes manifest modelIds before after)
    (hup : ∀ modelId ∈ modelIds, job.Rewrites manifest before modelId →
      ".." ∉ (job.targetPath modelId).names) {location : Location}
    (hway : job.OnTheWayTo before
      (fun modelId => modelId ∈ modelIds ∧ job.Rewrites manifest before modelId) location) :
    after.tree.entry? location = some .directory := by
  obtain ⟨modelId, ⟨hmem, hrewrites⟩, hway⟩ := hway
  obtain ⟨set, text, -, hreach, hnames, -⟩ := h.stored modelId hmem hrewrites
  refine Workspace.directory_of_onTheWay (hup modelId hmem hrewrites) hnames hreach ?_
  obtain ⟨front, hsome, hfront, hat⟩ := hway
  exact ⟨front, hsome, hfront, hat.trans (h.frame.destination_eq _).symm⟩

/-- What is neither a file that was rewritten nor on the way to one stays as it was. -/
theorem Completes.entry_eq (h : job.Completes manifest modelIds before after)
    {location : Location}
    (hfile : ¬ job.FileOf before
      (fun modelId => modelId ∈ modelIds ∧ job.Rewrites manifest before modelId) location)
    (hway : ¬ job.OnTheWayTo before
      (fun modelId => modelId ∈ modelIds ∧ job.Rewrites manifest before modelId) location) :
    after.tree.entry? location = before.tree.entry? location := by
  rcases h.frame.entry location with hsame | ⟨-, -, hmade⟩ | ⟨-, -, hat⟩
  · exact hsame
  · exact (hway hmade).elim
  · exact (hfile hat).elim

/-- Two runs from the same files that rewrite the same files with the same texts leave the same
files behind. -/
theorem Completes.entry_unique {a b : Manifest} {others : List WideText} {later : Workspace}
    (h : job.Completes a modelIds before after) (hother : job.Completes b others before later)
    (hup : ∀ modelId ∈ modelIds, job.Rewrites a before modelId →
      ".." ∉ (job.targetPath modelId).names)
    (hsame : ∀ modelId, modelId ∈ modelIds ∧ job.Rewrites a before modelId ↔
      modelId ∈ others ∧ job.Rewrites b before modelId)
    (hcompose : ∀ modelId set text, job.compose a modelId = .ok (set, text) →
      job.compose b modelId = .ok (set, text)) (location : Location) :
    later.tree.entry? location = after.tree.entry? location := by
  have hmodels : (fun modelId => modelId ∈ modelIds ∧ job.Rewrites a before modelId) =
      fun modelId => modelId ∈ others ∧ job.Rewrites b before modelId :=
    funext fun modelId => propext (hsame modelId)
  have hupOther : ∀ modelId ∈ others, job.Rewrites b before modelId →
      ".." ∉ (job.targetPath modelId).names := fun modelId hmem hrewrites =>
    let hboth := (hsame modelId).mpr ⟨hmem, hrewrites⟩
    hup modelId hboth.1 hboth.2
  by_cases hfile : job.FileOf before
      (fun modelId => modelId ∈ modelIds ∧ job.Rewrites a before modelId) location
  · obtain ⟨modelId, hrewrites, hat⟩ := hfile
    obtain ⟨set, text, htext, -, -, hentry⟩ := h.stored modelId hrewrites.1 hrewrites.2
    obtain ⟨hmem, hrewritesOther⟩ := (hsame modelId).mp hrewrites
    obtain ⟨set', text', htext', -, -, hentry'⟩ := hother.stored modelId hmem hrewritesOther
    rw [hcompose modelId set text htext] at htext'
    cases htext'
    rw [h.frame.destination_eq] at hentry
    rw [hother.frame.destination_eq] at hentry'
    rw [hat, hentry, hentry']
  · by_cases hway : job.OnTheWayTo before
        (fun modelId => modelId ∈ modelIds ∧ job.Rewrites a before modelId) location
    · rw [h.directory hup hway, hother.directory hupOther (hmodels ▸ hway)]
    · rw [h.entry_eq hfile hway, hother.entry_eq (hmodels ▸ hfile) (hmodels ▸ hway)]

end MachineRbi.Job
