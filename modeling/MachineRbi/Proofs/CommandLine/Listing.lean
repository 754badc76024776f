import Mathlib.Data.List.TakeWhile
import MachineRbi.Proofs.CommandLine.Streams
import MachineRbi.Proofs.Registry.Consistency

/-!
# Lists of models

A session of `models` writes the line of every model of the manifest, in order, or nothing at all,
unless a line cannot be written. That is so if a state machine stands under an integer of more than
4300 digits, and where the output stream leads to bytes, if the id or the name of a state machine
has half of a surrogate pair. Then the list stops before such a model (`run_models`). This and the
answers of the registry that the list is made from are gathered in `consistent_after`.
-/

namespace MachineRbi

/-- Half of a surrogate pair is in the id of the model or in the name of one of its state
machines. -/
def Model.HasHalf (model : Model) : Prop :=
  model.id.hasHalf = true ∨
    ∃ bindings, model.machines = .ok bindings ∧ ∃ binding ∈ bindings, binding.1.hasHalf = true

namespace CommandLine

/-! ## Lines -/

/-- The line of a model can be made unless a key of its state machines is too long. -/
theorem failure_of_modelLine {model : Model} {failure : Failure}
    (h : modelLine model = .error failure) :
    model.HasLongKey ∧ failure = .unwritable .longNumber := by
  have hsummary := map_eq_error_iff.mp h
  unfold machineSummary at hsummary
  split at hsummary
  next => cases hsummary
  next =>
    obtain hmachines | ⟨bindings, -, hsummary⟩ := bind_eq_error_iff.mp hsummary
    · exact Model.failure_of_machines hmachines
    · cases hsummary

/-- The summary of the state machines of a model has half of a pair exactly if a name has. -/
theorem hasHalf_machineSummary {model : Model} {summary : WideText}
    (h : machineSummary model = .ok summary) :
    summary.hasHalf = true ↔
      ∃ bindings, model.machines = .ok bindings ∧
        ∃ binding ∈ bindings, binding.1.hasHalf = true := by
  unfold machineSummary at h
  split at h
  next hnone =>
    -- A model without a list has no names.
    have hmachines : model.machines = .ok [] := by
      rw [Option.isNone_iff_eq_none] at hnone
      rw [Model.machines, hnone]
      rfl
    cases h
    simp [hmachines]
  next =>
    obtain ⟨bindings, hbindings, hsummary⟩ := bind_eq_ok_iff.mp h
    have hnames := WideText.hasHalf_intercalate (WideText.hasHalf_ofString ", ")
      (bindings.map (·.1))
    have hsame : summary.hasHalf = (bindings.map (·.1)).any WideText.hasHalf := by
      rw [← hnames]
      dsimp only [pure, Except.pure] at hsummary
      split at hsummary
      next hempty =>
        cases hsummary
        rw [hempty, WideText.hasHalf_ofString, WideText.hasHalf_ofString]
      next =>
        cases hsummary
        rfl
    rw [hsame]
    simp [hbindings]

/-- The line of a model has half of a pair exactly if the model has. -/
theorem hasHalf_modelLine {model : Model} {line : WideText} (h : modelLine model = .ok line) :
    line.hasHalf = true ↔ model.HasHalf := by
  obtain ⟨summary, hsummary, rfl⟩ := map_eq_ok_iff.mp h
  rw [Model.HasHalf, ← hasHalf_machineSummary hsummary]
  simp

/-- The lines are those of the models, in order. -/
def AreLines (models : List Model) (lines : List WideText) : Prop :=
  List.Forall₂ (fun model line => modelLine model = .ok line) models lines

/-- Models have a line each, or the lines stop before the first model with a key that is too
long. -/
theorem modelLines_cases (models : List Model) :
    (∃ lines, modelLines models = (lines, none) ∧ AreLines models lines) ∨
      ∃ front model back lines, models = front ++ model :: back ∧ model.HasLongKey ∧
        modelLines models = (lines, some (.unwritable .longNumber)) ∧ AreLines front lines := by
  induction models with
  | nil => exact .inl ⟨[], rfl, .nil⟩
  | cons model rest ih =>
      cases hline : modelLine model with
      | error failure =>
          obtain ⟨hlong, rfl⟩ := failure_of_modelLine hline
          exact .inr ⟨[], model, rest, [], rfl, hlong, by rw [modelLines, hline], .nil⟩
      | ok line =>
          obtain ⟨lines, hlines, hall⟩ | ⟨front, other, back, lines, rfl, hlong, hlines, hfront⟩ :=
            ih
          · exact .inl ⟨line :: lines, by rw [modelLines, hline, hlines], .cons hline hall⟩
          · exact .inr ⟨model :: front, other, back, line :: lines, rfl, hlong,
              by rw [modelLines, hline, hlines], .cons hline hfront⟩

/-- Of the lines of models all are taken, or those before the line of a model with half of a
pair. -/
theorem AreLines.taken_or_stops {models : List Model} {lines : List WideText}
    (h : AreLines models lines) (sink : Sink) :
    (∀ line ∈ lines, sink.takes line = true) ∨
      ∃ front model back, models = front ++ model :: back ∧ sink = .bytes ∧ model.HasHalf ∧
        AreLines front (lines.takeWhile sink.takes) ∧ lines.all sink.takes = false := by
  induction h with
  | nil => exact .inl (by simp)
  | @cons model line models lines hline hlines ih =>
      by_cases htaken : sink.takes line = true
      · rcases ih with hall | ⟨front, other, back, rfl, hsink, hhalf, hfront, hstops⟩
        · exact .inl (List.forall_mem_cons.mpr ⟨htaken, hall⟩)
        · refine .inr ⟨model :: front, other, back, rfl, hsink, hhalf, ?_, ?_⟩
          · rw [List.takeWhile_cons_of_pos htaken]
            exact .cons hline hfront
          · rw [List.all_cons, hstops, Bool.and_false]
      · rw [Bool.not_eq_true] at htaken
        obtain ⟨hsink, hhalf⟩ := Sink.takes_eq_false_iff.mp htaken
        refine .inr ⟨[], model, models, rfl, hsink, (hasHalf_modelLine hline).mp hhalf, ?_, ?_⟩
        · rw [List.takeWhile_cons_of_neg (by simp [htaken])]
          exact .nil
        · rw [List.all_cons, htaken, Bool.false_and]

/-! ## Streams -/

/-- Notes about the settings leave the output stream alone. -/
theorem early_out (records : List LogRecord) :
    (joinOutputs (records.map LogMode.early.show)).out = "" := by
  have hquiet : ∀ record, (LogMode.early.show record).out = "" := by
    intro record
    unfold LogMode.show
    dsimp only
    split <;> rfl
  rw [joinOutputs_eq, List.map_map]
  dsimp only
  induction records with
  | nil => rfl
  | cons record rest ih => simpa [hquiet] using ih

/-- A failure leaves the output stream alone, and a session that it ends does not exit with 0. -/
theorem showFailure_out (console : Console) (failure : Failure) :
    (showFailure console failure).1.out = "" ∧ (showFailure console failure).2 ≠ .exit 0 := by
  unfold showFailure
  cases failure.message? with
  | some message => exact ⟨rfl, by simp⟩
  | none => exact ⟨rfl, by simp⟩

namespace Session

variable {workspace : Workspace} {noColor? manifest? : Option String} {sink : Sink}
  {words : List String} {lines : List WideText}

/-! ## Sessions -/

/-- Notes about the settings do not show in what a session writes to the output stream. -/
theorem after_early_out (session : Session) (records : List LogRecord) :
    (session.after (joinOutputs (records.map LogMode.early.show))).output.out =
      session.output.out := by
  rw [after, Output.append_out, early_out, String.empty_append]

/-- A session that answers with lines writes those that are taken, whether or not a failure ends
it. -/
theorem query_out (console : Console) (sink : Sink) (workspace : Workspace) (lines : List WideText)
    (failure? : Option Failure) :
    (query console sink workspace (.ok (lines, failure?))).output.out =
      String.join ((lines.takeWhile sink.takes).map fun line => printed line.shown) := by
  have hlines : (showLines ((lines.takeWhile sink.takes).map WideText.shown)).out =
      String.join ((lines.takeWhile sink.takes).map fun line => printed line.shown) := by
    rw [showLines_out, List.map_map]
    rfl
  unfold query
  dsimp only
  split
  next failure heq => simp [(showFailure_out console failure).1, hlines]
  next => exact hlines

/-- A session whose lines are all taken ends as its answer does. -/
theorem query_ending_of_taken (console : Console) (workspace : Workspace)
    (h : ∀ line ∈ lines, sink.takes line = true) (failure? : Option Failure) :
    (query console sink workspace (.ok (lines, failure?))).ending =
      (failure?.map fun failure => (showFailure console failure).2).getD (.exit 0) := by
  have hall : lines.all sink.takes = true := List.all_eq_true.mpr h
  unfold query
  dsimp only
  rw [hall, if_pos rfl]
  cases failure? <;> rfl

/-- A line that is not taken ends a session. -/
theorem query_ending_of_not_taken (console : Console) (workspace : Workspace)
    (h : lines.all sink.takes = false) (failure? : Option Failure) :
    (query console sink workspace (.ok (lines, failure?))).ending = .crash .unencodable := by
  unfold query
  dsimp only
  rw [h, if_neg Bool.false_ne_true]
  rfl

/-- The lines of the models, and no more, are taken by the output stream. -/
def Lists (session : Session) (sink : Sink) (models : List Model) : Prop :=
  ∃ lines, AreLines models lines ∧ (∀ line ∈ lines, sink.takes line = true) ∧
    session.output.out = String.join (lines.map fun line => printed line.shown)

/-- The session lists the models before one with a key that is too long, and crashes there. -/
def StopsAtLongKey (session : Session) (sink : Sink) (models : List Model) : Prop :=
  ∃ front model back, models = front ++ model :: back ∧ model.HasLongKey ∧
    session.Lists sink front ∧ session.ending = .crash (.unwritable .longNumber)

/-- The session lists the models before one with half of a pair, and crashes there because its line
cannot be encoded. -/
def StopsAtHalf (session : Session) (sink : Sink) (models : List Model) : Prop :=
  ∃ front model back, models = front ++ model :: back ∧ sink = .bytes ∧ model.HasHalf ∧
    session.Lists sink front ∧ session.ending = .crash .unencodable

/-- The session lists the models and exits with 0, or it crashes at one whose line cannot be
written, behind the lines of those before it. -/
def ListsUpToFailure (session : Session) (sink : Sink) (models : List Model) : Prop :=
  session.Lists sink models ∧ session.ending = .exit 0 ∨ session.StopsAtLongKey sink models ∨
    session.StopsAtHalf sink models

/-- A session that answers with the lines of models lists them and ends as its answer does, or it
crashes at half of a pair. -/
theorem lists_or_stopsAtHalf {models : List Model} (h : AreLines models lines) (console : Console)
    (sink : Sink) (workspace : Workspace) (records : List LogRecord) (failure? : Option Failure) :
    let session := (query console sink workspace (.ok (lines, failure?))).after
      (joinOutputs (records.map LogMode.early.show))
    (session.Lists sink models ∧ session.ending =
        (failure?.map fun failure => (showFailure console failure).2).getD (.exit 0)) ∨
      session.StopsAtHalf sink models := by
  intro session
  have hout : session.output.out =
      String.join ((lines.takeWhile sink.takes).map fun line => printed line.shown) := by
    rw [after_early_out, query_out]
  rcases h.taken_or_stops sink with
    hall | ⟨front, model, back, rfl, hsink, hhalf, hfront, hstops⟩
  · rw [List.takeWhile_eq_self_iff.mpr hall] at hout
    exact .inl ⟨⟨lines, h, hall, hout⟩, query_ending_of_taken console workspace hall failure?⟩
  · have htaken : ∀ line ∈ lines.takeWhile sink.takes, sink.takes line = true :=
      fun line hmem => List.mem_takeWhile_imp hmem
    exact .inr ⟨front, model, back, rfl, hsink, hhalf, ⟨_, hfront, htaken, hout⟩,
      query_ending_of_not_taken console workspace hstops failure?⟩

/-- A session that answers with the lines of models lists them up to the first failure. -/
theorem listsUpToFailure_query (console : Console) (sink : Sink) (workspace : Workspace)
    (models : List Model) (records : List LogRecord) :
    ((query console sink workspace (.ok (modelLines models))).after
      (joinOutputs (records.map LogMode.early.show))).ListsUpToFailure sink models := by
  obtain ⟨lines, hlines, hare⟩ | ⟨front, model, back, lines, rfl, hlong, hlines, hare⟩ :=
    modelLines_cases models
  · rw [hlines]
    rcases lists_or_stopsAtHalf hare console sink workspace records none with hlists | hstops
    · exact .inl hlists
    · exact .inr (.inr hstops)
  · -- The list stops at the key that is too long, or at half of a pair in front of it.
    rw [hlines]
    rcases lists_or_stopsAtHalf hare console sink workspace records
        (some (.unwritable .longNumber)) with
      ⟨hlists, hending⟩ | ⟨before, other, behind, rfl, hsink, hhalf, hlists, hending⟩
    · exact .inr (.inl ⟨front, model, back, rfl, hlong, hlists, hending⟩)
    · refine .inr (.inr ⟨before, other, behind ++ model :: back, ?_, hsink, hhalf, hlists,
        hending⟩)
      rw [List.append_assoc, List.cons_append]

section

variable [Stack]

/-- A session of `models` that has read the manifest lists every model and exits with 0, or it stops
before a model with a key that is too long, or, where the output stream leads to bytes, before one
with half of a surrogate pair. Any other session of `models` writes nothing. -/
theorem run_models (hwords : Request.parse words = .perform (.models manifest?)) :
    let session := run workspace noColor? sink words
    (∃ services records manifest, Services.start workspace = (.ok services, records) ∧
      (registryFor services manifest?).manifest workspace = .ok manifest ∧
      session.ListsUpToFailure sink manifest.models) ∨
      (session.output.out = "" ∧ session.ending ≠ .exit 0) := by
  intro session
  let console := Services.console noColor?
  cases hstart : Services.start workspace with
  | mk found records =>
      let early := joinOutputs (records.map LogMode.early.show)
      cases found with
      | error failure =>
          have hsession : session = (Session.mk workspace {} (.crash failure)).after early := by
            simp only [session, run, hstart, early]
          rw [hsession]
          exact .inr ⟨after_early_out _ records, by simp [after]⟩
      | ok services =>
          have hsession : session = (query console sink workspace
              ((registryFor services manifest?).answer workspace fun manifest =>
                .ok (modelLines manifest.models))).after early := run_eq_execute hstart hwords
          unfold Registry.answer at hsession
          cases hmanifest : (registryFor services manifest?).manifest workspace with
          | error failure =>
              rw [hmanifest] at hsession
              rw [hsession]
              -- A manifest that cannot be read fails before the first line.
              refine .inr ⟨?_, (showFailure_out console failure).2⟩
              rw [after_early_out]
              exact query_out console sink workspace [] (some failure)
          | ok manifest =>
              rw [hmanifest] at hsession
              refine .inl ⟨services, records, manifest, rfl, hmanifest, ?_⟩
              have hquery : session =
                  (query console sink workspace (.ok (modelLines manifest.models))).after early :=
                hsession
              rw [hquery]
              exact listsUpToFailure_query console sink workspace manifest.models records

end

end Session

/-! ## Answers and lists together -/

section

variable [Stack]

/-- Whatever happens to a registry and its files, its answers fit together. Once it has listed its
models, it answers all later queries from one manifest that has these ids and knows what it lists.
No run over it fails because a model or a state machine is unknown. An inspection of a model says
that the model is unknown exactly if the manifest can be read and does not list it, and says of
nothing else that it is unknown. A session of `models` lists every model and exits with 0, or it
writes nothing, or it stops before a model with a key that is too long, or before one with half of a
surrogate pair where the output stream leads to bytes. -/
theorem consistent_after {registry : Registry} (hmade : registry.IsMade) (workspace : Workspace)
    (events : List Event) :
    let scene := (Scene.mk registry workspace).after events
    (∀ answer, scene.reply .modelIds = .ok answer →
      ∃ manifest, answer = .modelIds manifest.modelIds ∧ manifest.Consistent ∧
        ∀ later, (scene.step (.ask .modelIds)).replies later =
          (later.filterMap Event.query?).map (·.ask manifest)) ∧
    (∀ (job : Job) failure,
      (job.run scene.registry scene.workspace).result = .error failure → ¬ failure.IsUnknown) ∧
    (∀ types id,
      let answer := scene.registry.answer scene.workspace (·.inspect types id)
      let unknown : Failure := .complaint (.unknownModel scene.registry.source id)
      (answer = .error unknown ↔ ∃ manifest,
        scene.registry.manifest scene.workspace = .ok manifest ∧ id ∉ manifest.modelIds) ∧
      ∀ failure, answer = .error failure → failure.IsUnknown → failure = unknown) ∧
    ∀ noColor? sink words manifest?, Request.parse words = .perform (.models manifest?) →
      let session := Session.run scene.workspace noColor? sink words
      (∃ services records manifest,
        Services.start scene.workspace = (.ok services, records) ∧
        (Session.registryFor services manifest?).manifest scene.workspace = .ok manifest ∧
        session.ListsUpToFailure sink manifest.models) ∨
        (session.output.out = "" ∧ session.ending ≠ .exit 0) := by
  intro scene
  have hread : scene.registry.IsRead := Registry.isRead_after hmade.isRead events
  refine ⟨fun answer hlisted => Registry.replies_of_listed hread hlisted,
    fun job failure hfailure => Job.not_isUnknown_of_run hfailure, ?_,
    fun noColor? sink words manifest? hwords => Session.run_models hwords⟩
  intro types id answer unknown
  have hunlisted : ∀ failure, answer = .error failure → failure.IsUnknown → ∃ manifest,
      scene.registry.manifest scene.workspace = .ok manifest ∧ id ∉ manifest.modelIds :=
    fun failure hfailure hunknown => Registry.not_mem_of_isUnknown hfailure hunknown
  have hunknown : ∀ manifest, scene.registry.manifest scene.workspace = .ok manifest →
      id ∉ manifest.modelIds → answer = .error unknown :=
    fun manifest hmanifest hmem => Registry.answer_inspect_of_not_mem hread hmanifest hmem
  refine ⟨⟨fun h => hunlisted unknown h trivial, ?_⟩, ?_⟩
  · rintro ⟨manifest, hmanifest, hmem⟩
    exact hunknown manifest hmanifest hmem
  · intro failure hfailure hfound
    obtain ⟨manifest, hmanifest, hmem⟩ := hunlisted failure hfailure hfound
    exact Except.error.inj (hfailure.symm.trans (hunknown manifest hmanifest hmem))

end

open scoped Stack

/-- The answers about a manifest file with a lamp fit together, the file is listed, and a door is
unknown to its registry. -/
theorem consistent_after_lamp :
    let manifestFile : Entry := .file "models:\n  Lamp:\n".toUTF8
    let workspace : Workspace :=
      ⟨FileTree.empty.place ["sorbet", "aasm_manifest.yml"] manifestFile, []⟩
    let scene := (Scene.mk (.atPath "sorbet/aasm_manifest.yml") workspace).after
      [.ask (.isCapable "Lamp")]
    let session := Session.run workspace none .bytes ["models"]
    (∃ manifest : Manifest, manifest.modelIds = ["Lamp"] ∧ manifest.Consistent) ∧
      scene.registry.answer scene.workspace (·.inspect {} "Door") =
        .error (.complaint (.unknownModel "sorbet/aasm_manifest.yml" "Door")) ∧
      session.ending = .exit 0 ∧ ∃ services records manifest,
        Services.start workspace = (.ok services, records) ∧
        (Session.registryFor services none).manifest workspace = .ok manifest ∧
        session.Lists .bytes manifest.models := by
  intro manifestFile workspace scene session
  have hlisted : scene.reply .modelIds = .ok (.modelIds ["Lamp"]) := by decide +kernel
  have hwords : Request.parse ["models"] = .perform (.models none) := by decide +kernel
  have hending : session.ending = .exit 0 := by decide +kernel
  obtain ⟨hreplies, -, hinspect, hmodels⟩ := consistent_after
    (.ofPath "sorbet/aasm_manifest.yml") workspace [.ask (.isCapable "Lamp")]
  refine ⟨?_, ?_, hending, ?_⟩
  · obtain ⟨manifest, hids, hconsistent, -⟩ := hreplies _ hlisted
    exact ⟨manifest, (Answer.modelIds.inj hids).symm, hconsistent⟩
  · obtain ⟨manifest, hmanifest, hids⟩ := bind_eq_ok_iff.mp hlisted
    have hlist : manifest.modelIds = ["Lamp"] :=
      Answer.modelIds.inj (Except.ok.inj hids)
    have hsource : scene.registry.source = "sorbet/aasm_manifest.yml" := Scene.source_after _ _
    rw [← hsource]
    refine (hinspect {} "Door").1.mpr ⟨manifest, hmanifest, ?_⟩
    rw [hlist]
    decide
  · rcases hmodels none .bytes ["models"] none hwords with
      ⟨services, records, manifest, hstart, hmanifest, hlists⟩ | ⟨-, hfails⟩
    · refine ⟨services, records, manifest, hstart, hmanifest, ?_⟩
      rcases hlists with ⟨hlists, -⟩ | ⟨_, _, _, -, -, -, hcrash⟩ | ⟨_, _, _, -, -, -, -, hcrash⟩
      · exact hlists
      · cases hcrash.symm.trans hending
      · cases hcrash.symm.trans hending
    · exact (hfails hending).elim

/-- A document with a lamp, and a job with one state machine under a key. -/
def lampAndJobDocument (key : Scalar) : Value :=
  .map [(.str "models", .map [(.str "Lamp", .null),
    (.str "Job", .map [(.str "state_machines", .map [(key, .null)])])])]

/-- Under a key that is too long, the state machine of the job cannot be listed, and a list of the
models stops behind the lamp. -/
theorem lampAndJob_of_isLong {key : Scalar} (h : key.IsLong) :
    ∃ manifest, Manifest.ofValue "<memory>" (lampAndJobDocument key) = .ok manifest ∧
      manifest.modelIds = ["Lamp", "Job"] ∧
      manifest.machineNames "Job" = .error (.unwritable .longNumber) ∧
      modelLines manifest.models = ([("Lamp\t-" : WideText)], some (.unwritable .longNumber)) := by
  let job : Model := ⟨"Job", some [(key, .null)]⟩
  have hlong : job.HasLongKey := ⟨(key, .null), List.mem_singleton.mpr rfl, h⟩
  have hmachines : job.machines = .error (.unwritable .longNumber) := Model.machines_eq_error hlong
  have hline : modelLine job = .error (.unwritable .longNumber) := by
    simp [modelLine, machineSummary, hmachines, job, bind, Except.bind, Except.map]
  refine ⟨⟨"<memory>", [⟨"Lamp", none⟩, job]⟩, rfl, rfl, ?_, ?_⟩
  · have hmodel : Manifest.model ⟨"<memory>", [⟨"Lamp", none⟩, job]⟩ "Job" = .ok job := rfl
    simp [Manifest.machineNames, hmodel, hmachines, bind, Except.bind]
  · have hlamp : modelLine ⟨"Lamp", none⟩ = .ok "Lamp\t-" := by decide +kernel
    simp [modelLines, hlamp, hline]

/-- A document is accepted whose job has a state machine under the number with a one and 4300 zeros.
That state machine cannot be listed, and a list of the models has a line of the lamp only. -/
theorem not_consistent_longKey :
    ∃ manifest, Manifest.ofValue "<memory>"
        (lampAndJobDocument (.int (Int.ofNat (Nat.pow 10 4300)))) = .ok manifest ∧
      manifest.modelIds = ["Lamp", "Job"] ∧
      manifest.machineNames "Job" = .error (.unwritable .longNumber) ∧
      modelLines manifest.models = ([("Lamp\t-" : WideText)], some (.unwritable .longNumber)) :=
  lampAndJob_of_isLong (Scalar.isLong_ofNat (Nat.le_refl (Nat.pow 10 4300)))

end CommandLine

end MachineRbi
