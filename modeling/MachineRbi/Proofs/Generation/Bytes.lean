import MachineRbi.Proofs.Files.Replacing
import MachineRbi.Proofs.Generation.Composition
import MachineRbi.Proofs.Generation.Storing
import MachineRbi.Proofs.Generation.Turn

/-!
# What a run says about the bytes of a file

A visit reads the file of its model as text, with a line feed at every line end, and compares it
with the text that it makes. So it can fail to tell bytes apart, or fail outright: bytes that are no
text stop it (`visit_of_undecodable`), and bytes of a text lead to what `Job.verdict` says
(`visit_of_text`). A run reports this at the turn of the model (`Turn.reports_iff`). Together they
say for which bytes the report is right about whether they are those of the text that is made
(`Turn.tellsBytes_iff`).
-/

namespace MachineRbi.Job

variable {job : Job} {manifest : Manifest} {workspace : Workspace} {registry : Registry}
  {path : Path} {modelId : WideText} {set : DeclarationSet} {text stored : String}
  {bytes : ByteArray} {status : Status}

/-! ## A visit to a file that is there -/

/-- A text is stored in the place of what a file holds. -/
theorem store_of_holds [Stack] (h : workspace.Holds path bytes) (text : String) :
    ∃ after, store workspace path text = (after, .ok ()) := by
  refine ⟨workspace.set (workspace.destination path) (.file text.toUTF8), ?_⟩
  have hmade := Workspace.makeDirectories_of_reaches h.1 h.2.1
  have hwritten := Workspace.writeText_of_holds h text
  simp only [store, hmade, hwritten]

/-- What is said about a file that holds a text, where this text is made. -/
def verdict (job : Job) (stored text : String) : Status :=
  if Text.unified stored = text then .unchanged else if job.check then .stale else .written

/-- A file is unchanged if its text reads like the one that is made. -/
theorem verdict_eq_unchanged_iff (job : Job) :
    job.verdict stored text = .unchanged ↔ Text.unified stored = text := by
  unfold verdict
  by_cases hsame : Text.unified stored = text
  · simp [hsame]
  · cases job.check <;> simp [hsame]

section Visit

variable [Stack] (hprocessed : job.isProcessed manifest modelId = true)
  (hcompose : job.compose manifest modelId = .ok (set, text))
include hprocessed hcompose

/-- Bytes that are no text stop a visit to a model with a text. -/
theorem visit_of_undecodable (hholds : workspace.Holds (job.targetPath modelId) bytes)
    (hdecode : decodeText bytes = none) :
    (job.visit manifest workspace modelId).result = .error (.file .undecodable) := by
  have hcurrent : currentText workspace (job.targetPath modelId) =
      .error (.file .undecodable) := by
    rw [currentText_of_holds hholds, textOf, hdecode]
  rw [visit_of_isProcessed hprocessed, (process_of_compose hcompose).2]
  simp only [settle, hcurrent, Except.map]

/-- A visit says about the file of a model what the text in it leads to. If it says that the file is
written, then the file holds the text that is made. -/
theorem visit_of_text (hholds : workspace.Holds (job.targetPath modelId) stored.toUTF8) :
    (job.visit manifest workspace modelId).result =
        .ok (job.processedOutcome modelId set (job.verdict stored text)) ∧
      (job.verdict stored text = .written →
        (job.visit manifest workspace modelId).workspace.Holds (job.targetPath modelId)
          text.toUTF8) := by
  have hcurrent : currentText workspace (job.targetPath modelId) =
      .ok (some (Text.unified stored)) := by
    rw [currentText_of_holds hholds, textOf, decodeText_toUTF8]
  rw [visit_of_isProcessed hprocessed, (process_of_compose hcompose).1,
    (process_of_compose hcompose).2]
  unfold settle verdict
  simp only [hcurrent, Option.some.injEq]
  by_cases hsame : Text.unified stored = text
  · simp only [if_pos hsame]
    refine ⟨rfl, fun hwritten => ?_⟩
    cases hwritten
  · simp only [if_neg hsame]
    cases job.check with
    | true =>
        refine ⟨rfl, fun hwritten => ?_⟩
        cases hwritten
    | false =>
        obtain ⟨after, hstore⟩ := store_of_holds hholds text
        simp only [Bool.false_eq_true, ↓reduceIte, hstore]
        exact ⟨rfl, fun _ => store_holds hstore⟩

end Visit

/-! ## The turn of a model -/

/-- A run over a registry comes to a model, because the visits before it have succeeded. -/
structure Turn [Stack] (job : Job) (registry : Registry) (workspace : Workspace) where
  manifest : Manifest
  front : List WideText
  modelId : WideText
  back : List WideText
  outcomes : List Outcome
  loaded : registry.manifest workspace = .ok manifest
  listed : manifest.modelIds = front ++ modelId :: back
  visited : (job.visitAll manifest workspace front).result = .ok outcomes

namespace Turn

section

variable [Stack] (turn : Turn job registry workspace)

/-- The path of the file that is looked at. -/
def target : Path :=
  job.targetPath turn.modelId

/-- The files that are found at the turn. -/
def found : Workspace :=
  (job.visitAll turn.manifest workspace turn.front).workspace

/-- The run up to the turn and through it. -/
def through : Run (List Outcome) :=
  job.visitAll turn.manifest workspace (turn.front ++ [turn.modelId])

/-- The run gets through the turn with this status for the model, and that is what its report says
if it gets to its end. -/
def Reports (status : Status) : Prop :=
  ∃ outcome, outcome.modelId = turn.modelId ∧ outcome.status = status ∧
    turn.through.result = .ok (turn.outcomes ++ [outcome]) ∧
    ∀ report, (job.run registry workspace).result = .ok report →
      report.outcomes[turn.front.length]? = some outcome

/-- The model of a turn is one of the manifest. -/
theorem modelId_mem : turn.modelId ∈ turn.manifest.modelIds := by
  rw [turn.listed]
  simp

/-- A run gets through a turn exactly if the visit succeeds. -/
theorem through_eq :
    turn.through.workspace = (job.visit turn.manifest turn.found turn.modelId).workspace ∧
      turn.through.result = (job.visit turn.manifest turn.found turn.modelId).result.map
        fun outcome => turn.outcomes ++ [outcome] := by
  obtain ⟨hworkspace, hresult⟩ := visitAll_append turn.visited [turn.modelId]
  unfold through
  rw [hworkspace, hresult]
  change (job.visitAll turn.manifest turn.found [turn.modelId]).workspace = _ ∧
    (job.visitAll turn.manifest turn.found [turn.modelId]).result.map _ = _
  unfold visitAll
  dsimp only
  cases (job.visit turn.manifest turn.found turn.modelId).result <;> exact ⟨rfl, rfl⟩

/-- The report of a run that gets to its end has the outcome of the visit at the place of the
model. -/
theorem outcome_of_run {outcome : Outcome} {report : Report}
    (hvisit : (job.visit turn.manifest turn.found turn.modelId).result = .ok outcome)
    (hrun : (job.run registry workspace).result = .ok report) :
    report.outcomes[turn.front.length]? = some outcome := by
  have hthrough : turn.through.result = .ok (turn.outcomes ++ [outcome]) := by
    rw [turn.through_eq.2, hvisit]
    rfl
  have hvisits := (run_result_eq_ok_iff turn.loaded).mp hrun
  rw [turn.listed, List.append_cons, (visitAll_append hthrough turn.back).2] at hvisits
  obtain ⟨others, -, houtcomes⟩ := map_eq_ok_iff.mp hvisits
  have hlength : turn.front.length = turn.outcomes.length :=
    (visits_of_visitAll turn.visited).length_eq
  rw [← houtcomes, hlength, List.append_assoc]
  simp

/-- A run reports for the model of a turn what the visit comes to. -/
theorem reports_iff :
    turn.Reports status ↔
      ∃ outcome, outcome.status = status ∧
        (job.visit turn.manifest turn.found turn.modelId).result = .ok outcome := by
  constructor
  · rintro ⟨outcome, -, hstatus, hthrough, -⟩
    rw [turn.through_eq.2] at hthrough
    obtain ⟨visited, hvisit, hsame⟩ := map_eq_ok_iff.mp hthrough
    cases List.append_cancel_left hsame
    exact ⟨outcome, hstatus, hvisit⟩
  · rintro ⟨outcome, hstatus, hvisit⟩
    refine ⟨outcome, modelId_of_visit turn.modelId_mem hvisit, hstatus, ?_, fun report hrun => ?_⟩
    · rw [turn.through_eq.2, hvisit]
      rfl
    · exact turn.outcome_of_run hvisit hrun

/-- At its turn the model is not passed over, this text is made for it, and its file has these
bytes. -/
structure Sees (text : String) (bytes : ByteArray) : Prop where
  processed : job.isProcessed turn.manifest turn.modelId = true
  composed : ∃ set, job.compose turn.manifest turn.modelId = .ok (set, text)
  holds : turn.found.Holds turn.target bytes

/-- The bytes of the file tell what the run reports: unchanged exactly if they are those of the text
that is made, and otherwise stale if it only looks, and written if it may write. Then the file holds
the bytes of the text afterwards. -/
structure TellsBytes (text : String) (bytes : ByteArray) : Prop where
  unchanged : turn.Reports .unchanged ↔ bytes = text.toUTF8
  stale : bytes ≠ text.toUTF8 → job.check = true → turn.Reports .stale
  written : bytes ≠ text.toUTF8 → job.check = false →
    turn.Reports .written ∧ turn.through.workspace.Holds turn.target text.toUTF8

variable {turn}

/-- Where a file holds a text, the run reports what this text leads to. -/
theorem Sees.reports_iff (hsees : turn.Sees text stored.toUTF8) :
    turn.Reports status ↔ job.verdict stored text = status := by
  obtain ⟨hprocessed, ⟨set, hcompose⟩, hholds⟩ := hsees
  rw [turn.reports_iff, (visit_of_text hprocessed hcompose hholds).1]
  constructor
  · rintro ⟨outcome, rfl, h⟩
    cases h
    rfl
  · rintro rfl
    exact ⟨_, rfl, rfl⟩

/-- Where the bytes of a file are no text, the run does not get through the turn. -/
theorem Sees.not_reports (hsees : turn.Sees text bytes) (hdecode : decodeText bytes = none) :
    ¬ turn.Reports status := by
  obtain ⟨hprocessed, ⟨set, hcompose⟩, hholds⟩ := hsees
  rw [turn.reports_iff, visit_of_undecodable hprocessed hcompose hholds hdecode]
  rintro ⟨outcome, -, h⟩
  cases h

/-- Bytes that are no text tell nothing: they are not those of the text that is made, and still
nothing is reported. -/
theorem Sees.not_tellsBytes (hsees : turn.Sees text bytes) (hdecode : decodeText bytes = none) :
    ¬ turn.TellsBytes text bytes := by
  intro h
  have hdiffers : bytes ≠ text.toUTF8 := by
    rw [← decodeText_eq_some_iff.ne, hdecode]
    nofun
  cases hcheck : job.check with
  | true => exact hsees.not_reports hdecode (h.stale hdiffers hcheck)
  | false => exact hsees.not_reports hdecode (h.written hdiffers hcheck).1

/-- The bytes of a text tell what is reported exactly if that text reads like the one that is made
just when it is that one. -/
theorem Sees.tellsBytes_text_iff (hsees : turn.Sees text stored.toUTF8) :
    turn.TellsBytes text stored.toUTF8 ↔ (Text.unified stored = text ↔ stored = text) := by
  have hbytes : stored.toUTF8 = text.toUTF8 ↔ stored = text := String.toByteArray_inj
  have hunchanged : turn.Reports .unchanged ↔ Text.unified stored = text :=
    hsees.reports_iff.trans job.verdict_eq_unchanged_iff
  constructor
  · intro h
    rw [← hunchanged, h.unchanged, hbytes]
  · intro hsame
    have hverdict : stored.toUTF8 ≠ text.toUTF8 →
        job.verdict stored text = if job.check then .stale else .written := by
      intro hdiffers
      exact if_neg fun hread => hdiffers (hbytes.mpr (hsame.mp hread))
    refine ⟨?_, fun hdiffers hcheck => ?_, fun hdiffers hcheck => ?_⟩
    · rw [hunchanged, hsame, hbytes]
    · rw [hsees.reports_iff, hverdict hdiffers, if_pos hcheck]
    · have hwritten : job.verdict stored text = .written := by
        rw [hverdict hdiffers, hcheck]
        rfl
      obtain ⟨set, hcompose⟩ := hsees.composed
      refine ⟨hsees.reports_iff.mpr hwritten, ?_⟩
      rw [turn.through_eq.1]
      exact (visit_of_text hsees.processed hcompose hsees.holds).2 hwritten

/-- What a run reports about the file of a model is told by its bytes exactly if they are those of a
text that reads like the one that is made just when it is that one. -/
theorem tellsBytes_iff (hsees : turn.Sees text bytes) :
    turn.TellsBytes text bytes ↔
      ∃ stored : String, bytes = stored.toUTF8 ∧ (Text.unified stored = text ↔ stored = text) := by
  cases hdecode : decodeText bytes with
  | none =>
      refine iff_of_false (hsees.not_tellsBytes hdecode) ?_
      rintro ⟨stored, rfl, -⟩
      rw [decodeText_toUTF8] at hdecode
      cases hdecode
  | some stored =>
      obtain rfl := decodeText_eq_some_iff.mp hdecode
      rw [hsees.tellsBytes_text_iff]
      constructor
      · exact fun hsame => ⟨stored, rfl, hsame⟩
      · rintro ⟨other, hother, hsame⟩
        rwa [String.toByteArray_inj.mp hother]

/-! ## The turn of a door -/

end

/-- A job that passes over the lamp and looks whether the other files are up to date. -/
def doorJob (sigil : String) : Job :=
  { emitter := { sigil := sigil }, outputDir := "rbi", excluded := ["Lamp"], check := true }

/-- The lines that are made for the door. -/
def doorLines (sigil : String) : List String :=
  ["# This is an autogenerated file for state machine methods in House::Door",
   "# Please rerun aasm-rbi generate to regenerate.",
   "",
   "# typed: " ++ sigil,
   "",
   "class House::Door",
   "end"]

/-- The text that is made for the door. -/
def doorText (sigil : String) : String :=
  "\n".intercalate (doorLines sigil) ++ "\n"

/-- The files with these bytes in the file of the door. -/
def doorFiles (bytes : ByteArray) : Workspace :=
  ⟨FileTree.empty.place ["rbi", "house", "door.rbi"] (.file bytes), []⟩

open scoped Stack

/-- The turn of the door in these files, after the lamp. -/
def doorTurn (sigil : String) (bytes : ByteArray) :
    Turn (doorJob sigil) ⟨"models.yml", some lampAndDoor⟩ (doorFiles bytes) :=
  ⟨lampAndDoor, ["Lamp"], "House::Door", [], [⟨"Lamp", .skipped, none, 0, "excluded"⟩], rfl, rfl,
    rfl⟩

/-- At its turn the door is not passed over, the text for it is made, and its file has the bytes
that were put there. -/
theorem sees_door (sigil : String) (bytes : ByteArray) :
    (doorTurn sigil bytes).Sees (doorText sigil) bytes := by
  have hinspect : lampAndDoor.inspect (doorJob sigil).types "House::Door" =
      .ok ⟨"House::Door", []⟩ := rfl
  have hemit : (doorJob sigil).emitter.emit ⟨"House::Door", []⟩ = .ok (doorText sigil) :=
    Rbi.emit_eq_ok_iff.mpr ⟨by decide, nofun, rfl⟩
  refine ⟨rfl, ⟨_, compose_eq_ok_iff.mpr ⟨hinspect, hemit⟩⟩, ?_⟩
  have htarget : (doorTurn sigil bytes).target = ⟨.here, ["rbi", "house", "door.rbi"]⟩ := by
    change (doorJob "strong").targetPath "House::Door" = _
    decide +kernel
  have hclosed : (doorFiles bytes).tree.Closed :=
    FileTree.closed_empty.place (by decide) (by decide +kernel) _
  have hentry (location : Location) : (doorFiles bytes).tree.entry? location =
      if location = ["rbi", "house", "door.rbi"] then some (.file bytes)
      else FileTree.entry? (FileTree.empty.openWay [] ["rbi", "house"]) location :=
    FileTree.entry?_set _ _ _ _ (by simp)
  rw [htarget]
  refine ⟨Workspace.reaches_of_directory hclosed (by decide)
    ⟨by decide, by decide, by decide⟩ ?_, by simp, ?_⟩
  · exact (hentry ["rbi", "house"]).trans ((if_neg (by simp)).trans (by decide +kernel))
  · exact (hentry ["rbi", "house", "door.rbi"]).trans (if_pos rfl)

/-- The bytes of an old file of the door tell that it is stale. -/
theorem tellsBytes_door :
    let old := "class House::Door\nend\n"
    (doorTurn "strong" old.toUTF8).Sees (doorText "strong") old.toUTF8 ∧
      (doorTurn "strong" old.toUTF8).TellsBytes (doorText "strong") old.toUTF8 := by
  intro old
  have hsees := sees_door "strong" old.toUTF8
  refine ⟨hsees, (tellsBytes_iff hsees).mpr ⟨old, rfl, ?_⟩⟩
  rw [Text.unified_of_not_mem (show '\r' ∉ old.toList by decide)]

/-- The bytes of the text with carriage returns at its line ends do not tell that the file has
changed, bytes that are no text do not tell that it is stale, and with a carriage return in the
header not even the bytes of the text itself tell that it is unchanged. -/
theorem not_tellsBytes_door :
    let text := doorText "strong"
    let bytes := (Text.withReturns text).toUTF8
    let oddText := doorText "true\rfalse"
    ((doorTurn "strong" bytes).Sees text bytes ∧
        ¬ (doorTurn "strong" bytes).TellsBytes text bytes) ∧
      ((doorTurn "strong" ⟨#[0xff]⟩).Sees text ⟨#[0xff]⟩ ∧
        ¬ (doorTurn "strong" ⟨#[0xff]⟩).TellsBytes text ⟨#[0xff]⟩) ∧
      (doorTurn "true\rfalse" oddText.toUTF8).Sees oddText oddText.toUTF8 ∧
        ¬ (doorTurn "true\rfalse" oddText.toUTF8).TellsBytes oddText oddText.toUTF8 := by
  intro text bytes oddText
  have hsees := sees_door "strong"
  have hodd := sees_door "true\rfalse" oddText.toUTF8
  refine ⟨⟨hsees bytes, ?_⟩, ⟨hsees ⟨#[0xff]⟩, ?_⟩, hodd, ?_⟩
  · obtain ⟨set, hcompose⟩ := (hsees bytes).composed
    have hplain : '\r' ∉ text.toList :=
      return_not_mem_compose (by decide) (by decide) rfl hcompose
    have hfeed : '\n' ∈ text.toList := by simp [text, doorText]
    rw [(hsees bytes).tellsBytes_text_iff]
    exact fun hsame =>
      Text.withReturns_ne hfeed hplain (hsame.mp (Text.unified_withReturns hplain))
  · exact (hsees ⟨#[0xff]⟩).not_tellsBytes (by decide +kernel)
  · have hreturn : '\r' ∈ oddText.toList := by decide +kernel
    rw [hodd.tellsBytes_text_iff]
    exact fun hsame => Text.unified_eq_self_iff.mp (hsame.mpr rfl) hreturn

end Turn

end MachineRbi.Job
