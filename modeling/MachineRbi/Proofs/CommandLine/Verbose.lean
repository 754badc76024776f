import MachineRbi.Proofs.CommandLine.Gate
import MachineRbi.Proofs.Settings.Tolerance

/-!
# The log of a verbose session

A verbose session of `generate` is to log one line for each model. The first note about a settings
file opens the log before the session can ask for all records, and then the log shows warnings only.
So the lines about the models are in the log exactly if there is no settings file from the working
directory upward, or no model to log a line for (`logsEach_iff`).
-/

namespace MachineRbi

/-! ## Notes about settings -/

namespace Settings

variable {workspace : Workspace} {directories : List Location}

/-- A directory has a settings file, whatever the file holds. -/
def HasFile (tree : FileTree) (directory : Location) : Prop :=
  ∃ bytes, entryIn tree directory = some (.file bytes)

variable [Stack]

/-- A search that comes to no file finds nothing and makes no note. -/
theorem searchIn_of_noFile (hsees : ∀ directory ∈ directories, Sees workspace directory)
    (hfiles : ∀ directory ∈ directories, ¬ HasFile workspace.tree directory) :
    searchIn workspace directories = (.ok (.map []), []) := by
  induction directories with
  | nil => rfl
  | cons directory rest ih =>
      have hrest := ih (fun other hmem => hsees other (List.mem_cons_of_mem _ hmem))
        fun other hmem => hfiles other (List.mem_cons_of_mem _ hmem)
      rw [searchIn_cons (hsees directory List.mem_cons_self)]
      split
      next bytes hentry => exact (hfiles directory List.mem_cons_self ⟨bytes, hentry⟩).elim
      next => exact hrest

/-- A search that comes to a file and finds something has made a note. -/
theorem notes_ne_nil_of_searchIn (hsees : ∀ directory ∈ directories, Sees workspace directory)
    {found : Value} (h : (searchIn workspace directories).1 = .ok found)
    (hfile : ∃ directory ∈ directories, HasFile workspace.tree directory) :
    (searchIn workspace directories).2 ≠ [] := by
  induction directories with
  | nil => simp at hfile
  | cons directory rest ih =>
      rw [searchIn_cons (hsees directory List.mem_cons_self)] at h ⊢
      split at h
      next bytes hentry =>
        -- A file that is read leaves a note, whatever it holds.
        split at h
        next => cases h
        next => simp
        next => simp
      next hentry =>
        refine ih (fun other hmem => hsees other (List.mem_cons_of_mem _ hmem)) h ?_
        obtain ⟨other, hmem, bytes, hbytes⟩ := hfile
        rcases List.mem_cons.mp hmem with rfl | hmem
        · exact (hentry bytes hbytes).elim
        · exact ⟨other, hmem, bytes, hbytes⟩

/-- If the program starts, it has made a note exactly if there is a settings file on the way up. -/
theorem start_notes_eq_nil_iff {services : Services} {records : List LogRecord}
    (hclosed : workspace.Closed) (hhere : Location.IsProper workspace.here)
    (h : Services.start workspace = (.ok services, records)) :
    records = [] ↔ ∀ directory ∈ upward workspace.here, ¬ HasFile workspace.tree directory := by
  have hstart := hclosed.resolve_here
  obtain ⟨found, notes, hsearch⟩ := search_of_start h
  have hsees := sees_of_mem_upward hclosed.tree hhere
    (within_of_search hclosed hhere hsearch)
  have hfound := hsearch
  rw [search_eq hstart] at hfound
  rw [start_of_search hsearch] at h
  obtain ⟨-, rfl⟩ := Prod.mk.inj h
  constructor
  · intro hnil directory hmem hfile
    refine notes_ne_nil_of_searchIn hsees (congrArg Prod.fst hfound) ⟨directory, hmem, hfile⟩ ?_
    rw [hfound]
    exact (List.append_eq_nil_iff.mp hnil).1
  · intro hfiles
    -- An empty table has no keys to note.
    cases hfound.symm.trans (searchIn_of_noFile hsees hfiles)
    rfl

end Settings

/-! ## Lines about models -/

/-- A line about what a job decides for a model, in a log that shows all records. -/
inductive Job.DecisionLine [Stack] (job : Job) (manifest : Manifest) (modelId : WideText) :
    String → Prop
  | excluded (h : job.excluded.contains modelId = true) :
      DecisionLine job manifest modelId
        ("INFO aasm_rbi.use_cases.generate_rbi: Skipping " ++ modelId.shown ++
          ": excluded by configuration\n")
  | noMachine (hkept : job.excluded.contains modelId = false)
      (h : manifest.isCapable modelId = .ok false) :
      DecisionLine job manifest modelId
        ("INFO aasm_rbi.use_cases.generate_rbi: Skipping " ++ modelId.shown ++
          ": no state machine\n")
  | processed (hkept : job.excluded.contains modelId = false)
      (h : manifest.isCapable modelId = .ok true) {set : DeclarationSet} {text : String}
      (hcompose : job.compose manifest modelId = .ok (set, text)) :
      DecisionLine job manifest modelId
        ("DEBUG aasm_rbi.use_cases.generate_rbi: " ++ modelId.shown ++ ": " ++
          toString set.size ++ " declarations -> " ++ (job.targetPath modelId).text ++ "\n")

namespace CommandLine

variable {workspace : Workspace} {job : Job} {registry : Registry} {report : Report}
  {manifest : Manifest} {modelId : WideText} {console : Console} {records : List LogRecord}

section

variable [Stack]

/-- A line about a model is no empty text. -/
theorem ne_empty_of_decisionLine {line : String} (h : job.DecisionLine manifest modelId line) :
    line ≠ "" := by
  intro hline
  cases h <;> exact absurd (congrArg String.toList hline) (by simp)

/-- In a log that shows all records the note about a listed model is a line about it. -/
theorem decisionLine_visitNote (hmem : modelId ∈ manifest.modelIds)
    (hcompose : job.isProcessed manifest modelId = true →
      ∃ set text, job.compose manifest modelId = .ok (set, text)) :
    job.DecisionLine manifest modelId
      (showNote console .verbose (job.visitNote manifest modelId)).err := by
  unfold Job.visitNote
  cases hprocessed : job.isProcessed manifest modelId with
  | true =>
      obtain ⟨hkept, hcapable⟩ := Job.isProcessed_iff.mp hprocessed
      obtain ⟨set, text, htext⟩ := hcompose hprocessed
      have hcount : job.declarationCount manifest modelId = set.size := by
        rw [Job.declarationCount, htext]
      have hline := Job.DecisionLine.processed hkept hcapable htext
      simp only [if_true, hcount, Job.processedNote, showNote, LogMode.show]
      convert hline using 1
      apply String.toList_inj.mp
      simp [Level.text, Channel.text]
  | false =>
      simp only [Bool.false_eq_true, if_false, Job.skipNote]
      cases hexcluded : job.excluded.contains modelId with
      | true =>
          have hline : job.DecisionLine manifest modelId _ := .excluded hexcluded
          simp only [if_true, Job.skippedNote, showNote, LogMode.show]
          convert hline using 1
          apply String.toList_inj.mp
          simp [Level.text, Channel.text]
      | false =>
          have hcapable : manifest.isCapable modelId = .ok false := by
            obtain ⟨capable, hcapable⟩ := Job.isCapable_of_mem hmem
            cases capable with
            | false => exact hcapable
            | true =>
                rw [Job.isProcessed_iff.mpr ⟨hexcluded, hcapable⟩] at hprocessed
                cases hprocessed
          have hline := Job.DecisionLine.noMachine hexcluded hcapable
          simp only [Bool.false_eq_true, if_false, Job.skippedNote, showNote, LogMode.show]
          convert hline using 1
          apply String.toList_inj.mp
          simp [Level.text, Channel.text]

/-- In a log that was opened early the note about a model does not show. -/
theorem visitNote_early_err (job : Job) (manifest : Manifest) (modelId : WideText) :
    (showNote console .early (job.visitNote manifest modelId)).err = "" := by
  unfold Job.visitNote
  split <;> rfl

omit [Stack] in
/-- The notes at the end of a run are no records, so they do not depend on the log. -/
theorem closing_err (mode : LogMode) :
    (job.closing report).map (fun note => (showNote console mode note).err) =
      (job.closing report).map fun note => (showNote console .normal note).err := by
  unfold Job.closing
  split
  · simp [Job.staleNote, Function.comp_def, showNote]
  · rfl

/-- The error stream has the notes about the settings, then one line for each model in order, and
then what the run says at its end. -/
def LogsEach (console : Console) (records : List LogRecord) (job : Job) (manifest : Manifest)
    (report : Report) (err : String) : Prop :=
  ∃ lines, List.Forall₂ (job.DecisionLine manifest) manifest.modelIds lines ∧
    err = String.join (records.map fun record => (LogMode.early.show record).err) ++
      String.join lines ++
      String.join ((job.closing report).map fun note => (showNote console .normal note).err)

/-- If the lines about all models are no text, there is no model. -/
theorem modelIds_eq_nil_of_join {lines : List String}
    (h : List.Forall₂ (job.DecisionLine manifest) manifest.modelIds lines)
    (hjoin : String.join lines = "") : manifest.modelIds = [] := by
  generalize manifest.modelIds = modelIds at h ⊢
  cases h with
  | nil => rfl
  | cons hline hrest =>
      refine (ne_empty_of_decisionLine hline ?_).elim
      have hchars := congrArg String.toList hjoin
      apply String.toList_inj.mp
      simp at hchars ⊢
      exact hchars.1

/-- In a log that was opened early there is no line about any model. -/
theorem join_visitNotes_early (job : Job) (manifest : Manifest) (modelIds : List WideText) :
    String.join (modelIds.map fun modelId =>
      (showNote console .early (job.visitNote manifest modelId)).err) = "" := by
  induction modelIds with
  | nil => rfl
  | cons modelId rest ih => rw [List.map_cons, String.join_cons, visitNote_early_err, ih]; rfl

end

namespace Session

variable {services : Services} {manifest? outputDir? noColor? : Option String} {check : Bool}
  {sink : Sink} {words : List String} {code : Nat}

section

variable [Stack]

/-- A session of `generate` that ends with 0 or 1 has completed its run. -/
theorem report_of_exit {verbose : Bool}
    (hwords : Request.parse words = .perform (.generate manifest? outputDir? check verbose))
    (hending : (run workspace noColor? sink words).ending = .exit code) (hcode : code ≤ 1) :
    ∃ services records manifest report, Services.start workspace = (.ok services, records) ∧
      (registryFor services manifest?).manifest workspace = .ok manifest ∧
      ((jobFor services outputDir? check).run (registryFor services manifest?) workspace).result =
        .ok report := by
  obtain ⟨services, records, hstart, hsession⟩ := run_generate hwords hending
  rw [hsession] at hending
  obtain ⟨failure, -, -, rfl⟩ | ⟨report, hreport, -⟩ := generate_ending hending
  · exact absurd hcode (by decide)
  · obtain ⟨manifest, hmanifest⟩ := manifest_of_run hreport
    exact ⟨services, records, manifest, report, hstart, hmanifest, hreport⟩

/-- What a verbose session writes to the error stream after a run that completes. -/
theorem verbose_err
    (hwords : Request.parse words = .perform (.generate manifest? outputDir? check true))
    (hstart : Services.start workspace = (.ok services, records))
    (hmanifest : (registryFor services manifest?).manifest workspace = .ok manifest)
    (hreport : ((jobFor services outputDir? check).run (registryFor services manifest?)
      workspace).result = .ok report) :
    let console := Services.console noColor?
    let job := jobFor services outputDir? check
    (run workspace noColor? sink words).output.err =
      String.join (records.map fun record => (LogMode.early.show record).err) ++
      String.join (manifest.modelIds.map fun modelId =>
        (showNote console (.choose records true) (job.visitNote manifest modelId)).err) ++
      String.join ((job.closing report).map fun note => (showNote console .normal note).err) := by
  intro console job
  have hopening : ∀ mode, (showNote console mode job.opening).err = "" :=
    fun _ => console.notice_step_err _
  dsimp only [console, job] at hopening ⊢
  rw [run_eq_execute hstart hwords, after, Output.append_err, joinOutputs_err, List.map_map,
    execute, generate_err hreport, Job.run_notes hmanifest hreport, List.map_cons, List.map_append,
    closing_err, List.map_map]
  simp [hopening, Function.comp_def, String.append_assoc]

/-- A verbose session of `generate` that ends with 0 or 1 logs one line for each model exactly if
there is no settings file from the working directory upward, or no model. -/
theorem logsEach_iff (hclosed : workspace.Closed) (hhere : Location.IsProper workspace.here)
    (hwords : Request.parse words = .perform (.generate manifest? outputDir? check true))
    (hending : (run workspace noColor? sink words).ending = .exit code) (hcode : code ≤ 1) :
    ∃ services records manifest report, Services.start workspace = (.ok services, records) ∧
      let job := jobFor services outputDir? check
      let registry := registryFor services manifest?
      registry.manifest workspace = .ok manifest ∧
      (job.run registry workspace).result = .ok report ∧
      (LogsEach (Services.console noColor?) records job manifest report
          (run workspace noColor? sink words).output.err ↔
        (∀ directory ∈ Settings.upward workspace.here,
          ¬ Settings.HasFile workspace.tree directory) ∨ manifest.modelIds = []) := by
  obtain ⟨services, records, manifest, report, hstart, hmanifest, hreport⟩ :=
    report_of_exit hwords hending hcode
  refine ⟨services, records, manifest, report, hstart, hmanifest, hreport, ?_⟩
  rw [verbose_err hwords hstart hmanifest hreport,
    ← Settings.start_notes_eq_nil_iff hclosed hhere hstart]
  have hvisits := (Job.run_result_eq_ok_iff hmanifest).mp hreport
  cases hrecords : records with
  | nil =>
      refine iff_of_true ⟨_, ?_, rfl⟩ (.inl rfl)
      refine List.forall₂_map_right_iff.mpr (List.forall₂_same.mpr fun modelId hmem => ?_)
      exact decisionLine_visitNote hmem (Job.compose_of_visitAll hvisits modelId hmem)
  | cons first rest =>
      have hmode : LogMode.choose (first :: rest) true = .early := rfl
      rw [hmode, join_visitNotes_early, String.append_empty]
      constructor
      · rintro ⟨lines, hlines, herr⟩
        refine .inr (modelIds_eq_nil_of_join hlines ?_)
        have hchars := congrArg String.toList herr
        simp only [String.toList_append, List.append_assoc, List.append_cancel_left_eq] at hchars
        exact String.toList_inj.mp (List.self_eq_append_left.mp hchars)
      · rintro (hnil | hnone)
        · cases hnil
        · exact ⟨[], by rw [hnone]; exact .nil, by simp⟩

end

open scoped Stack

/-- Without a settings file the line about a lamp is logged. -/
theorem logsEach_iff_lamp :
    let workspace : Workspace := ⟨FileTree.empty.place ["sorbet", "aasm_manifest.yml"]
      (.file "models:\n  Lamp:\n".toUTF8), []⟩
    let session := run workspace none .bytes ["generate", "-v"]
    session.ending = .exit 0 ∧
      ∃ services records manifest report, Services.start workspace = (.ok services, records) ∧
        (registryFor services none).manifest workspace = .ok manifest ∧
        LogsEach (Services.console none) records (jobFor services none false) manifest report
          session.output.err := by
  intro workspace session
  have hclosed : workspace.Closed :=
    ⟨FileTree.closed_empty.place (by decide) (by decide +kernel) _, rfl⟩
  have hhere : Location.IsProper workspace.here := fun _ hmem => nomatch hmem
  have hwords : Request.parse ["generate", "-v"] =
      .perform (.generate none none false true) := by decide +kernel
  have hending : session.ending = .exit 0 := by decide +kernel
  have hnone : Settings.entryIn workspace.tree [] = none := by decide +kernel
  refine ⟨hending, ?_⟩
  obtain ⟨services, records, manifest, report, hstart, hmanifest, -, hlogs⟩ :=
    logsEach_iff hclosed hhere hwords hending (by decide)
  refine ⟨services, records, manifest, report, hstart, hmanifest, hlogs.mpr (.inl ?_)⟩
  intro directory hmem
  obtain rfl := List.prefix_nil.mp (Settings.mem_upward_iff.mp hmem)
  rintro ⟨bytes, hbytes⟩
  cases hnone.symm.trans hbytes

/-- With an empty settings file the line about a lamp is missing. -/
theorem not_logsEach_emptySettings :
    let workspace : Workspace := ⟨(FileTree.empty.place [Settings.fileName]
      (.file "".toUTF8)).place ["sorbet", "aasm_manifest.yml"]
        (.file "models:\n  Lamp:\n".toUTF8), []⟩
    let session := run workspace none .bytes ["generate", "-v"]
    session.ending = .exit 0 ∧ session.output.err = "" ∧
      ∃ services records manifest report, Services.start workspace = (.ok services, records) ∧
        (registryFor services none).manifest workspace = .ok manifest ∧
        ((jobFor services none false).run (registryFor services none) workspace).result =
          .ok report ∧
        ¬ LogsEach (Services.console none) records (jobFor services none false) manifest report
          session.output.err := by
  intro workspace session
  have hwords : Request.parse ["generate", "-v"] =
      .perform (.generate none none false true) := by decide +kernel
  have hending : session.ending = .exit 0 := by decide +kernel
  have herr : session.output.err = "" := by decide +kernel
  have hlisted : ((Services.start workspace).1.toOption.bind fun services =>
      ((registryFor services none).manifest workspace).toOption.map Manifest.modelIds) =
      some [("Lamp" : WideText)] := by decide +kernel
  refine ⟨hending, herr, ?_⟩
  obtain ⟨services, records, manifest, report, hstart, hmanifest, hreport⟩ :=
    report_of_exit hwords hending (by decide)
  refine ⟨services, records, manifest, report, hstart, hmanifest, hreport, ?_⟩
  rintro ⟨lines, hlines, hlogged⟩
  have hids : manifest.modelIds = [("Lamp" : WideText)] := by
    simpa [hstart, hmanifest, Except.toOption] using hlisted
  have hjoin : String.join lines = "" := by
    have hchars := congrArg String.toList (herr.symm.trans hlogged)
    simp only [String.toList_append, String.toList_empty, List.nil_eq, List.append_eq_nil_iff]
      at hchars
    exact String.toList_inj.mp hchars.1.2
  rw [modelIds_eq_nil_of_join hlines hjoin] at hids
  cases hids

end Session

end CommandLine

end MachineRbi
