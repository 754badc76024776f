import Mathlib.Data.List.Infix
import MachineRbi.Proofs.Files.Limits
import MachineRbi.Proofs.Generation.Order
import MachineRbi.Proofs.Registry.Legible

/-!
# Files that nothing obstructs

The file of a model is unobstructed if nothing but directories stands on the way to it and nothing
but a text in its place. A visit leaves the files of all models so, its own and the others
(`unobstructed_visit`). So a run that starts with such files has no failure of the files but a path
that is too long (`run_unobstructed`).
-/

namespace MachineRbi

/-! ## Paths -/

namespace Workspace

variable {workspace before after : Workspace} {path : Path} {directories files : Location → Prop}

/-- Whatever stands on the way along a path is a directory, and whatever stands at its end is a file
with a text. -/
structure Unobstructed (workspace : Workspace) (path : Path) : Prop where
  way : ∀ front, front <+: path.parent.names → ∀ entry,
    workspace.tree.entry? (workspace.destination ⟨path.anchor, front⟩) = some entry →
      entry = .directory
  place : ∀ entry, workspace.tree.entry? (workspace.destination path) = some entry →
    ∃ text : String, entry = .file text.toUTF8

/-- A front of the way along a path that does not lead up is reached name by name. -/
theorem destination_front (hup : ".." ∉ path.names) {front : List String}
    (hfront : front <+: path.parent.names) :
    workspace.destination ⟨path.anchor, front⟩ = workspace.start path ++ front :=
  destination_eq_append (fun hmem => Path.up_not_mem_parent hup (hfront.subset hmem)) workspace

/-- The way along an unobstructed path is clear. -/
theorem Unobstructed.clear (h : workspace.Unobstructed path) (hclosed : workspace.Closed)
    (hup : ".." ∉ path.names) : workspace.Clear path.parent := by
  have hupParent := Path.up_not_mem_parent hup
  have hstart := hclosed.departure path.parent
  rw [departure_eq hupParent] at hstart
  refine ⟨hstart, fun front hfront bytes hfile => ?_⟩
  rw [start_parent, ← destination_front hup hfront] at hfile
  cases h.way front hfront (.file bytes) hfile

/-- A file can be put at the end of an unobstructed path that can be spelled. -/
theorem Unobstructed.isOpen (h : workspace.Unobstructed path) (hclosed : workspace.Closed)
    (hup : ".." ∉ path.names) (hnames : path.names ≠ []) (hspelled : path.Spelled) :
    workspace.Open path := by
  refine ⟨hspelled, hnames, h.clear hclosed hup, fun hdirectory => ?_⟩
  obtain ⟨text, htext⟩ := h.place _ hdirectory
  cases htext

/-- A path that holds a text is unobstructed. -/
theorem Holds.unobstructed {text : String} (h : workspace.Holds path text.toUTF8)
    (hup : ".." ∉ path.names) : workspace.Unobstructed path := by
  have hclear := (h.isOpen hup).clear
  obtain ⟨-, -, hheld⟩ := h
  refine ⟨fun front hfront entry hentry => ?_, fun entry hentry => ?_⟩
  · rw [destination_front hup hfront] at hentry
    rcases hclear.directory_or_none hfront with hdirectory | hnone
    · exact Option.some.inj (hentry.symm.trans hdirectory)
    · cases hentry.symm.trans hnone
  · rw [hheld] at hentry
    exact ⟨text, (Option.some.inj hentry).symm⟩

/-- Changes that spare an unobstructed path leave it so. -/
theorem Unobstructed.frame (h : before.Unobstructed path)
    (hframe : Frame directories files before after)
    (hspared : before.Spared directories files path) (hup : ".." ∉ path.names) :
    after.Unobstructed path := by
  refine ⟨fun front hfront entry hentry => ?_, fun entry hentry => ?_⟩
  · rw [hframe.destination_eq] at hentry
    rcases hframe.entry (before.destination ⟨path.anchor, front⟩) with
      hsame | ⟨-, hmade, -⟩ | ⟨-, -, hfile⟩
    · exact h.way front hfront entry (hsame ▸ hentry)
    · exact Option.some.inj (hentry.symm.trans hmade)
    · rw [destination_front hup hfront] at hfile
      exact (hspared.file front (hfront.trans (List.dropLast_prefix _)) hfile).elim
  · rw [hframe.destination_eq, hframe.entry_destination hspared hup] at hentry
    exact h.place entry hentry

/-- Where a file stands, one stands after any work on files. -/
theorem Frame.exists_holds (h : Frame directories files before after) {bytes : ByteArray}
    (hholds : before.Holds path bytes) : ∃ bytes, after.Holds path bytes := by
  obtain ⟨hreach, hnames, hentry⟩ := hholds
  have hreachAfter := h.reaches hreach
  rcases h.entry (before.destination path) with hsame | ⟨hnone, -⟩ | ⟨-, ⟨changed, hfile⟩, -⟩
  · exact ⟨bytes, hreachAfter, hnames, by rw [h.destination_eq, hsame, hentry]⟩
  · rw [hentry] at hnone
    cases hnone
  · exact ⟨changed, hreachAfter, hnames, by rw [h.destination_eq, hfile]⟩

/-- A file is found where a path holds one. -/
theorem isFile_of_holds {bytes : ByteArray} (h : workspace.Holds path bytes) :
    workspace.isFile path = .ok true := by
  simp [isFile, find?, holds_iff_entryAt.mp h, Except.map]

variable [Stack]

/-- Why the work on a file can fail though nothing obstructs it: a limit of the operating system, or
the room on the stack. -/
inductive Exceeds (workspace : Workspace) (path : Path) : FileFault → Prop where
  /-- The path or a name in it is too long. -/
  | tooLong (h : ¬ path.WithinLimits) : workspace.Exceeds path .tooLong
  /-- More directories are missing on the way than can be made at once. -/
  | tooDeep (h : ¬ workspace.MissesAtMost Stack.missing path.parent) :
      workspace.Exceeds path .tooDeep

/-- What exceeds the limits after work on files exceeded them before. -/
theorem Exceeds.of_frame {fault : FileFault} (h : after.Exceeds path fault)
    (hframe : Frame directories files before after) : before.Exceeds path fault := by
  cases h with
  | tooLong hlong => exact .tooLong hlong
  | tooDeep hmany => exact .tooDeep fun hfew => hmany (hfew.frame hframe)

end Workspace

namespace Job

open Underscore (isRooted)

variable {job : Job} {manifest : Manifest} {workspace : Workspace} {path : Path} {text : String}
  {modelId other : WideText} {modelIds : List WideText} {outcome : Outcome}
  {outcomes : List Outcome} {fault : FileFault} {registry : Registry}

/-! ## Work on a file -/

/-- No text is found at the end of a path beyond the limits. -/
theorem currentText_of_long (hup : ".." ∉ path.names) (hnull : Workspace.hasNull path = false)
    (hlong : ¬ path.WithinLimits) (hclear : workspace.Clear path.parent) :
    currentText workspace path = .error (.file .tooLong) ∨
      currentText workspace path = .ok none := by
  rcases Workspace.locate_of_long hup hnull hlong hclear with hlocate | ⟨hlocate, -⟩
  · have hfound := Workspace.find?_of_tooLong hlocate
    simp [currentText, Workspace.pathExists, hfound, bind, Except.bind, Except.map, Except.mapError]
  · have hfound := Workspace.find?_of_notFound hlocate
    exact .inr (currentText_eq_none_iff.mpr (by simp [Workspace.pathExists, hfound, Except.map]))

section

variable [Stack]

/-- No text is stored at the end of a clear path beyond the limits. -/
theorem store_of_long (hclosed : workspace.tree.Closed) (hup : ".." ∉ path.names)
    (hnull : Workspace.hasNull path = false) (hlong : ¬ path.WithinLimits)
    (hclear : workspace.Clear path.parent) (text : String) :
    ∃ fault, (store workspace path text).2 = .error (.file fault) ∧
      workspace.Exceeds path fault := by
  have hupParent := Path.up_not_mem_parent hup
  have hnullParent : Workspace.hasNull path.parent = false :=
    Workspace.hasNull_of_front hnull (List.dropLast_prefix _)
  -- What stops the making of the way stops the storing.
  have hstops : ∀ fault, (workspace.makeDirectories path.parent true).2 = .error fault →
      (store workspace path text).2 = .error (.file fault) := by
    intro fault hfails
    cases hmade : workspace.makeDirectories path.parent true with
    | mk made result =>
        rw [hmade] at hfails
        simp only at hfails
        simp [store, hmade, hfails]
  by_cases hwithin : path.parent.WithinLimits
  · rcases Workspace.makeDirectories_cases hclosed hupParent
        (Path.spelled_iff.mpr ⟨hnullParent, hwithin⟩) hclear with
      ⟨made, hmade, habove, -⟩ | ⟨hdeep, hmany⟩
    · -- The way is there now, and the name of the file is too long.
      have hframe := workspace.makeDirectories_frame path.parent true
      have hclosedMade := Workspace.makeDirectories_closed hclosed hupParent true
      rw [hmade] at hframe hclosedMade
      dsimp only at hframe hclosedMade
      rw [Workspace.destination_eq_append hupParent, ← hframe.start_eq] at habove
      have hlocate := Workspace.locate_eq_tooLong hup hnull hlong
        (hclear.frame hframe fun _ _ => id) hclosedMade habove
      refine ⟨_, ?_, .tooLong hlong⟩
      simp [store, hmade, Workspace.writeText, Workspace.lookUp, hlocate, bind, Except.bind]
    · exact ⟨_, hstops _ (by rw [hdeep]), .tooDeep hmany⟩
  · rcases Workspace.makeDirectories_of_long hclosed hupParent hnullParent hwithin hclear with
      hfails | ⟨hdeep, hmany⟩
    · exact ⟨_, hstops _ hfails, .tooLong hlong⟩
    · exact ⟨_, hstops _ hdeep, .tooDeep hmany⟩

section Unobstructed

variable (hclosed : workspace.Closed) (hup : ".." ∉ path.names) (hnames : path.names ≠ [])
  (hnull : Workspace.hasNull path = false) (hfree : workspace.Unobstructed path)
include hclosed hup hnames hnull hfree

/-- Looking for the text of an unobstructed file fails only beyond the limits. -/
theorem exceeds_of_currentText (h : currentText workspace path = .error (.file fault)) :
    workspace.Exceeds path fault := by
  by_cases hwithin : path.WithinLimits
  · have hopen := hfree.isOpen hclosed hup hnames (Path.spelled_iff.mpr ⟨hnull, hwithin⟩)
    rw [currentText_of_open hopen hclosed.tree hup] at h
    cases hentry : workspace.tree.entry? (workspace.destination path) with
    | none =>
        rw [hentry] at h
        cases h
    | some entry =>
        obtain ⟨text, rfl⟩ := hfree.place entry hentry
        rw [hentry, textOf, decodeText_toUTF8] at h
        cases h
  · rcases currentText_of_long hup hnull hwithin (hfree.clear hclosed hup) with
      hcurrent | hcurrent
    · cases hcurrent.symm.trans h
      exact .tooLong hwithin
    · cases hcurrent.symm.trans h

/-- Storing a text in an unobstructed file fails only beyond the limits. -/
theorem exceeds_of_store (h : (store workspace path text).2 = .error (.file fault)) :
    workspace.Exceeds path fault := by
  by_cases hwithin : path.WithinLimits
  · have hopen := hfree.isOpen hclosed hup hnames (Path.spelled_iff.mpr ⟨hnull, hwithin⟩)
    rcases store_cases hopen hclosed.tree hup text with ⟨after, hstore, -⟩ | ⟨hstore, hmany⟩
    · rw [hstore] at h
      cases h
    · rw [hstore] at h
      cases h
      exact .tooDeep hmany
  · obtain ⟨found, hstore, hexceeds⟩ :=
      store_of_long hclosed.tree hup hnull hwithin (hfree.clear hclosed hup) text
    cases hstore.symm.trans h
    exact hexceeds

/-- Bringing an unobstructed file up to date, or looking whether it is, fails for the files only
beyond the limits. -/
theorem exceeds_of_settle {check : Bool}
    (h : (settle check workspace path text).2 = .error (.file fault)) :
    workspace.Exceeds path fault := by
  rcases settle_eq_error h with hcurrent | hstore
  · exact exceeds_of_currentText hclosed hup hnames hnull hfree hcurrent
  · exact exceeds_of_store hclosed hup hnames hnull hfree hstore

end Unobstructed

/-! ## Visits -/

/-- Composing a text does not touch the files. -/
theorem compose_ne_file (job : Job) (manifest : Manifest) (modelId : WideText)
    (fault : FileFault) : job.compose manifest modelId ≠ .error (.file fault) := by
  intro hcompose
  have hcomplaint : ∀ {id : WideText}, manifest.model id ≠ .error (.file fault) := fun hmodel => by
    obtain ⟨reason, hreason⟩ := Manifest.isComplaint_of_model hmodel
    cases hreason
  obtain hinspect | ⟨reason, hreason⟩ := failure_of_compose hcompose
  · obtain hcapable | hnames | ⟨names, hnames, name, hname, hresolve⟩ :=
      Manifest.failure_of_inspect hinspect
    · exact hcomplaint (map_eq_error_iff.mp hcapable)
    · obtain hmodel | ⟨model, -, hmachines⟩ := bind_eq_error_iff.mp hnames
      · exact hcomplaint hmodel
      · obtain hmachines | ⟨bindings, -, hbindings⟩ := bind_eq_error_iff.mp hmachines
        · obtain ⟨-, hlong⟩ := Model.failure_of_machines hmachines
          cases hlong
        · cases hbindings
    · obtain ⟨model, body, -, -, hbody⟩ := Manifest.resolve_of_mem hnames hname
      rw [hbody] at hresolve
      cases houtline : body.outline? with
      | none =>
          rw [Machine.ofBody_of_none houtline] at hresolve
          cases hresolve
      | some outline =>
          obtain ⟨-, ⟨machine, hread⟩ | ⟨key, hread⟩⟩ | ⟨-, reason, hread⟩ :=
            Machine.ofBody_cases manifest.source modelId name houtline <;>
          · rw [hread] at hresolve
            cases hresolve
  · cases hreason

/-- If the files stop a visit then it has come to them with a text for a model that is processed. -/
theorem settle_of_visit (hmem : modelId ∈ manifest.modelIds)
    (h : (job.visit manifest workspace modelId).result = .error (.file fault)) :
    job.isProcessed manifest modelId = true ∧ Rbi.isConstantPath modelId = true ∧
      ∃ text, (settle job.check workspace (job.targetPath modelId) text).2 =
        .error (.file fault) := by
  cases hprocessed : job.isProcessed manifest modelId with
  | false =>
      rw [visit_result_of_not_isProcessed hmem hprocessed] at h
      cases h
  | true =>
      rw [visit_of_isProcessed hprocessed] at h
      cases hcompose : job.compose manifest modelId with
      | error failure =>
          simp only [process, hcompose] at h
          cases h
          exact (compose_ne_file job manifest modelId fault hcompose).elim
      | ok composed =>
          obtain ⟨set, text⟩ := composed
          rw [(process_of_compose hcompose).2] at h
          exact ⟨rfl, isConstantPath_of_compose hcompose, text, map_eq_error_iff.mp h⟩

/-- A visit that succeeds leaves the files of all models without double colons before their ids
unobstructed, its own and the others. -/
theorem unobstructed_visit (houtput : ".." ∉ (Path.ofText job.outputDir).names)
    (hpath : Rbi.isConstantPath modelId = true) (hrooted : isRooted modelId = false)
    (hplain : job.isProcessed manifest other = true → isRooted other = false)
    (hvisit : (job.visit manifest workspace other).result = .ok outcome)
    (h : workspace.Unobstructed (job.targetPath modelId)) :
    (job.visit manifest workspace other).workspace.Unobstructed (job.targetPath modelId) := by
  obtain ⟨hup, -⟩ := up_not_mem_targetPath hpath houtput
  cases hprocessed : job.isProcessed manifest other with
  | false =>
      rw [visit_workspace_of_not_isProcessed hprocessed]
      exact h
  | true =>
      have hframe := job.visit_frame manifest workspace other
      rw [visit_of_isProcessed hprocessed] at hvisit hframe ⊢
      obtain ⟨set, text, hcompose, hcases⟩ := process_cases hvisit
      have hpathOther := isConstantPath_of_compose hcompose
      by_cases hsame : job.targetPath modelId = job.targetPath other
      · -- The two models share a file. The visit leaves it as it is, or with its text.
        rcases hcases with ⟨-, hidle, -⟩ | ⟨-, -, hidle, -⟩ | ⟨-, -, hstore, -⟩
        · rwa [hidle]
        · rwa [hidle]
        · have hholds := store_holds hstore
          rw [← hsame] at hholds
          exact hholds.unobstructed hup
      · have hapart := apart_targetPath hpathOther hpath (hplain hprocessed) hrooted (Ne.symm hsame)
        have hspared :=
          hapart.spared (up_not_mem_targetPath hpathOther houtput).1 hup workspace
        exact h.frame (hframe.mono (fun _ hat => hat.2) fun _ hat => hat.2) hspared hup

/-- Visits that succeed leave the files of all models without double colons before their ids
unobstructed. -/
theorem unobstructed_visitAll (houtput : ".." ∉ (Path.ofText job.outputDir).names)
    (hpath : Rbi.isConstantPath modelId = true) (hrooted : isRooted modelId = false)
    (hplain : ∀ other ∈ modelIds, job.isProcessed manifest other = true → isRooted other = false)
    (hvisits : (job.visitAll manifest workspace modelIds).result = .ok outcomes)
    (h : workspace.Unobstructed (job.targetPath modelId)) :
    (job.visitAll manifest workspace modelIds).workspace.Unobstructed
      (job.targetPath modelId) := by
  induction modelIds generalizing workspace outcomes with
  | nil => exact h
  | cons other rest ih =>
      obtain ⟨outcome, others, hfirst, hothers, -, hworkspace⟩ := visitAll_cons_eq_ok hvisits
      rw [hworkspace]
      exact ih (fun next hmem => hplain next (List.mem_cons_of_mem _ hmem)) hothers
        (unobstructed_visit houtput hpath hrooted (hplain other List.mem_cons_self) hfirst h)

/-- A visit that may write and succeeds leaves a file for a model that is processed. -/
theorem exists_holds_of_visit (hwrites : job.check = false)
    (hprocessed : job.isProcessed manifest modelId = true)
    (h : (job.visit manifest workspace modelId).result = .ok outcome) :
    ∃ bytes, (job.visit manifest workspace modelId).workspace.Holds (job.targetPath modelId)
      bytes := by
  obtain ⟨set, text, -, hread⟩ := stored_of_visit hwrites hprocessed h
  obtain ⟨bytes, stored, hholds, -⟩ := Workspace.readText_eq_ok_iff.mp hread
  exact ⟨bytes, hholds⟩

/-- A run that may write and completes leaves a file for each model that is processed. -/
theorem exists_holds_of_visitAll (hwrites : job.check = false)
    (h : (job.visitAll manifest workspace modelIds).result = .ok outcomes) :
    ∀ modelId ∈ modelIds, job.isProcessed manifest modelId = true →
      ∃ bytes, (job.visitAll manifest workspace modelIds).workspace.Holds (job.targetPath modelId)
        bytes := by
  induction modelIds generalizing workspace outcomes with
  | nil => simp
  | cons first rest ih =>
      obtain ⟨outcome, others, hfirst, hothers, -, hworkspace⟩ := visitAll_cons_eq_ok h
      rw [hworkspace]
      intro modelId hmem hprocessed
      rcases List.mem_cons.mp hmem with rfl | hmem
      · -- The visits behind this one may write the file again, but a file stays a file.
        obtain ⟨bytes, hholds⟩ := exists_holds_of_visit hwrites hprocessed hfirst
        exact (job.visitAll_frame manifest _ rest).exists_holds hholds
      · exact ih hothers modelId hmem hprocessed

/-! ## Runs -/

/-- If nothing obstructs the files of the models that a run over a closed tree does not pass over,
then the run has no failure of the files but a path that is too long. The work on them can otherwise
only exhaust the stack, where more directories are missing on the way to one than it has room for.
If the run may write and completes then they all exist and are files. The output directory neither
leads up nor holds a null character, and no id that is processed starts with double colons. -/
theorem run_unobstructed (hclosed : workspace.Closed)
    (houtput : ".." ∉ (Path.ofText job.outputDir).names)
    (hnull : '\x00' ∉ job.outputDir.toList)
    (hmanifest : registry.manifest workspace = .ok manifest)
    (hplain : ∀ modelId ∈ job.processedIds manifest, isRooted modelId = false)
    (hfree : ∀ modelId ∈ job.processedIds manifest,
      workspace.Unobstructed (job.targetPath modelId)) :
    let run := job.run registry workspace
    (∀ fault, run.result = .error (.file fault) →
        ∃ modelId ∈ job.processedIds manifest,
          workspace.Exceeds (job.targetPath modelId) fault) ∧
      ∀ report, run.result = .ok report → job.check = false →
        ∀ modelId ∈ job.processedIds manifest,
          run.workspace.isFile (job.targetPath modelId) = .ok true := by
  intro run
  refine ⟨fun fault hrun => ?_, fun report hrun hwrites modelId hmem => ?_⟩
  · have hvisits := (run_result_eq_error_iff hmanifest).mp hrun
    obtain ⟨modelId, found, ⟨front, back, outcomes, hids, hfront, rfl⟩, hvisit, -⟩ :=
      visitAll_stops hvisits
    have hlisted : ∀ other, other ∈ front ++ modelId :: back → other ∈ manifest.modelIds :=
      fun other hmem => hids ▸ hmem
    have hmem : modelId ∈ manifest.modelIds := hlisted modelId (by simp)
    obtain ⟨hprocessed, hpath, text, hsettle⟩ := settle_of_visit hmem hvisit
    have hmemProcessed : modelId ∈ job.processedIds manifest :=
      List.mem_filter.mpr ⟨hmem, hprocessed⟩
    obtain ⟨hup, hnames⟩ := up_not_mem_targetPath hpath houtput
    have hclosedFound : (job.visitAll manifest workspace front).workspace.Closed :=
      visitAll_keeps (fun other _ _ => Workspace.kept_closed (job.targetPath other)) hclosed
    have hfreeFound := unobstructed_visitAll houtput hpath (hplain modelId hmemProcessed)
      (fun other hother hprocessedOther => hplain other
        (List.mem_filter.mpr ⟨hlisted other (List.mem_append_left _ hother), hprocessedOther⟩))
      hfront (hfree modelId hmemProcessed)
    have hexceeds := exceeds_of_settle hclosedFound hup hnames
      (hasNull_targetPath hpath hnull) hfreeFound hsettle
    exact ⟨modelId, hmemProcessed, hexceeds.of_frame (job.visitAll_frame manifest workspace front)⟩
  · have hvisits := (run_result_eq_ok_iff hmanifest).mp hrun
    obtain ⟨hlisted, hprocessed⟩ := List.mem_filter.mp hmem
    obtain ⟨bytes, hholds⟩ := exists_holds_of_visitAll hwrites hvisits modelId hlisted hprocessed
    rw [← run_workspace hmanifest] at hholds
    exact Workspace.isFile_of_holds hholds

end

open scoped Stack

/-- A run over a lamp and a door leaves both files. One of them holds another text before, and a
directory is missing on the way to the other. -/
theorem run_unobstructed_lampAndDoor :
    let job : Job := { emitter := {}, outputDir := "rbi", excluded := [] }
    let workspace : Workspace :=
      ⟨FileTree.place .empty ["rbi", "lamp.rbi"] (.file "old".toUTF8), []⟩
    let run := job.run ⟨"models.yml", some lampAndDoor⟩ workspace
    (∀ fault, run.result ≠ .error (.file fault)) ∧
      ∀ modelId ∈ [("Lamp" : WideText), "House::Door"],
        run.workspace.isFile (job.targetPath modelId) = .ok true := by
  intro job workspace run
  have hrun : run.result = .ok ⟨[⟨"Lamp", .written, some "rbi/lamp.rbi", 5, ""⟩,
      ⟨"House::Door", .written, some "rbi/house/door.rbi", 0, ""⟩]⟩ := by
    decide +kernel
  have hclosed : workspace.Closed :=
    ⟨FileTree.closed_empty.place (by decide) (by decide +kernel) _, rfl⟩
  have hprocessed : job.processedIds lampAndDoor = ["Lamp", "House::Door"] := by decide +kernel
  have hlamp : workspace.Unobstructed (job.targetPath "Lamp") := by
    have hholds : workspace.Holds (job.targetPath "Lamp") "old".toUTF8 :=
      Workspace.holds_iff_entryAt.mpr (by decide +kernel)
    exact hholds.unobstructed (by decide +kernel)
  have hdoor : workspace.Unobstructed (job.targetPath "House::Door") := by
    have hpath : job.targetPath "House::Door" = ⟨.here, ["rbi", "house", "door.rbi"]⟩ := by
      decide +kernel
    have hstands : ∀ front ∈ ["rbi", "house"].inits,
        workspace.tree.entry? (workspace.destination ⟨.here, front⟩) = some .directory ∨
          workspace.tree.entry? (workspace.destination ⟨.here, front⟩) = none := by
      decide +kernel
    have hnone : workspace.tree.entry? ["rbi", "house", "door.rbi"] = none := by decide +kernel
    rw [hpath]
    refine ⟨fun front hfront entry hentry => ?_, fun entry hentry => ?_⟩
    · rcases hstands front ((List.mem_inits _ _).mpr hfront) with hfound | hfound
      · exact Option.some.inj (hentry.symm.trans hfound)
      · cases hentry.symm.trans hfound
    · cases hentry.symm.trans hnone
  have hmanifest : (Registry.mk "models.yml" (some lampAndDoor)).manifest workspace =
      .ok lampAndDoor := rfl
  have hplain : ∀ modelId ∈ job.processedIds lampAndDoor, isRooted modelId = false := by
    decide +kernel
  have hfree : ∀ modelId ∈ job.processedIds lampAndDoor,
      workspace.Unobstructed (job.targetPath modelId) := by
    rw [hprocessed]
    intro modelId hmem
    rcases List.mem_pair.mp hmem with rfl | rfl
    · exact hlamp
    · exact hdoor
  have houtput : ".." ∉ (Path.ofText job.outputDir).names := by decide +kernel
  have hnull : '\x00' ∉ job.outputDir.toList := by decide +kernel
  obtain ⟨-, hfiles⟩ := run_unobstructed hclosed houtput hnull hmanifest hplain hfree
  rw [hprocessed] at hfiles
  refine ⟨fun fault hfails => ?_, hfiles _ hrun rfl⟩
  rw [hrun] at hfails
  cases hfails

end Job

end MachineRbi
