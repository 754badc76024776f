import MachineRbi.Proofs.CommandLine.Listing
import MachineRbi.Proofs.Registry.Legible

/-!
# Sessions that end with an exit code

A session that only looks at a manifest whose file is legible does not crash unless the output
stream cannot take a line of the answer (`execute_exits_iff`). A file that is not text, or that
holds a date which does not exist, is not legible, and a list of its models crashes
(`not_settles_garbled`).
-/

namespace MachineRbi.CommandLine

variable {workspace : Workspace} {path : String}

/-- A failure of the tool's own makes a session exit with 2. -/
theorem showFailure_of_isOwn (console : Console) {failure : Failure} (h : failure.IsOwn) :
    (showFailure console failure).2 = .exit 2 := by
  obtain ⟨message, hmessage⟩ := h
  rw [showFailure, hmessage]

/-- The line of a declaration has half of a pair exactly if its name has. -/
theorem hasHalf_declarationLine (declaration : Declaration) :
    declaration.line.hasHalf = declaration.name.hasHalf := by
  rw [Declaration.line, WideText.hasHalf_append, WideText.hasHalf_ofString, Bool.or_false]

/-- The lines that show declarations are all taken unless the names of the declarations stand on
them, one of these has half of a pair, and the output stream leads to bytes. -/
theorem takes_declarationLines_iff {sink : Sink} {json : Bool} {set : DeclarationSet} :
    (∀ line ∈ declarationLines json set, sink.takes line = true) ↔
      (sink = .bytes → json = false →
        ∀ declaration ∈ set.declarations, declaration.name.hasHalf = false) := by
  cases json with
  | true => simp [declarationLines]
  | false =>
      cases sink <;> simp [declarationLines, Sink.takes, hasHalf_declarationLine]

/-- The lines of models are all taken unless one of the models has half of a pair and the output
stream leads to bytes. -/
theorem AreLines.takes_iff {sink : Sink} {models : List Model} {lines : List WideText}
    (h : AreLines models lines) :
    (∀ line ∈ lines, sink.takes line = true) ↔
      (sink = .bytes → ∀ model ∈ models, ¬ model.HasHalf) := by
  induction h with
  | nil => simp
  | @cons model line models lines hline hlines ih =>
      rw [List.forall_mem_cons, ih]
      cases sink <;> simp [Sink.takes, ← hasHalf_modelLine hline]

namespace Session

variable {services : Services} {console : Console} {records : List LogRecord}
  {manifest? outputDir? noColor? : Option String} {sink : Sink} {words : List String}
  {command : Command}

/-- A session that answers with lines ends with 0 if they are all taken, and crashes otherwise. -/
theorem query_exits_iff {lines : List WideText} :
    (∃ code ≤ 2, (query console sink workspace (.ok (lines, none))).ending = .exit code) ↔
      ∀ line ∈ lines, sink.takes line = true := by
  constructor
  · rintro ⟨code, -, hending⟩
    by_contra hnot
    have hstops : lines.all sink.takes = false := by
      rwa [← List.all_eq_true, Bool.not_eq_true] at hnot
    cases (query_ending_of_not_taken console workspace hstops none).symm.trans hending
  · intro htaken
    exact ⟨0, Nat.zero_le 2, query_ending_of_taken console workspace htaken none⟩

section

variable [Stack]

/-- The command looks at the manifest at the path, and writes nothing: it lists or inspects models,
or it checks files of which none is there. -/
def OnlyLooks (services : Services) (workspace : Workspace) (path : String) : Command → Prop
  | .models manifest? => registryFor services manifest? = .atPath path
  | .inspect _ manifest? _ _ => registryFor services manifest? = .atPath path
  | .generate manifest? outputDir? check _ =>
    registryFor services manifest? = .atPath path ∧ check = true ∧
      let job := jobFor services outputDir? check
      ∀ manifest, Registry.readManifest workspace path = .ok manifest →
        ∀ modelId ∈ job.processedIds manifest,
          workspace.pathExists (job.targetPath modelId) = .ok false

/-- The lines that answer the command are of characters: no model that is listed, and no name of a
declaration that is shown as it stands, has half of a surrogate pair. -/
def PrintsCharacters (services : Services) (workspace : Workspace) : Command → Prop
  | .models manifest? => ∀ manifest,
    (registryFor services manifest?).manifest workspace = .ok manifest →
      ∀ model ∈ manifest.models, ¬ model.HasHalf
  | .inspect model manifest? json _ => json = false → ∀ set,
    (registryFor services manifest?).answer workspace (·.inspect {} model) = .ok set →
      ∀ declaration ∈ set.declarations, declaration.name.hasHalf = false
  | .generate .. => True

/-- A session that lists the models of a legible file ends with an exit code exactly if all its
lines are taken. -/
theorem models_exits_iff (hlegible : Registry.Legible workspace path) :
    (∃ code ≤ 2, (query console sink workspace ((Registry.atPath path).answer workspace
        fun manifest => .ok (modelLines manifest.models))).ending = .exit code) ↔
      (sink = .bytes → ∀ manifest, (Registry.atPath path).manifest workspace = .ok manifest →
        ∀ model ∈ manifest.models, ¬ model.HasHalf) := by
  unfold Registry.answer
  cases hmanifest : (Registry.atPath path).manifest workspace with
  | error failure =>
      have hcomplaint := hlegible.isComplaint_of_readManifest hmanifest
      exact iff_of_true ⟨2, Nat.le_refl 2, showFailure_of_isOwn console hcomplaint.isOwn⟩
        fun _ manifest hread => by cases hread
  | ok manifest =>
      have hspelled := hlegible.names manifest hmanifest
      obtain ⟨lines, hlines, hare⟩ | ⟨front, model, back, -, hmodels, hlong, -, -⟩ :=
        modelLines_cases manifest.models
      · simp only [bind, Except.bind, hlines]
        rw [query_exits_iff, hare.takes_iff]
        simp
      · -- The list could only stop at a key that is too long, and there is none.
        refine (hspelled.keys model ?_ hlong).elim
        rw [hmodels]
        exact List.mem_append_right _ List.mem_cons_self

/-- A session that inspects a model of a legible file ends with an exit code exactly if all its
lines are taken. -/
theorem inspect_exits_iff (hlegible : Registry.Legible workspace path) (types : TypeVocabulary)
    (id : WideText) (json : Bool) :
    (∃ code ≤ 2, (query console sink workspace (((Registry.atPath path).answer workspace
        (·.inspect types id)).map fun set => (declarationLines json set, none))).ending =
          .exit code) ↔
      (sink = .bytes → json = false → ∀ set,
        (Registry.atPath path).answer workspace (·.inspect types id) = .ok set →
          ∀ declaration ∈ set.declarations, declaration.name.hasHalf = false) := by
  cases hanswer : (Registry.atPath path).answer workspace (·.inspect types id) with
  | ok set =>
      dsimp only [Except.map]
      rw [query_exits_iff, takes_declarationLines_iff]
      simp
  | error failure =>
      have hcomplaint : failure.IsComplaint := by
        obtain hmanifest | ⟨manifest, hmanifest, hinspect⟩ := bind_eq_error_iff.mp hanswer
        · exact hlegible.isComplaint_of_readManifest hmanifest
        · exact (hlegible.names manifest hmanifest).isComplaint_of_inspect hinspect
      exact iff_of_true ⟨2, Nat.le_refl 2, showFailure_of_isOwn console hcomplaint.isOwn⟩
        fun _ _ set hread => by cases hread

/-- A check over the models of a legible file, none of which has a file, fails with a failure of the
tool's own only. -/
theorem isOwn_of_check {job : Job} {failure : Failure} (hlegible : Registry.Legible workspace path)
    (hcheck : job.check = true)
    (hmissing : ∀ manifest, Registry.readManifest workspace path = .ok manifest →
      ∀ modelId ∈ job.processedIds manifest,
        workspace.pathExists (job.targetPath modelId) = .ok false)
    (h : (job.run (.atPath path) workspace).result = .error failure) : failure.IsOwn := by
  cases hmanifest : (Registry.atPath path).manifest workspace with
  | error found =>
      simp only [Job.run, hmanifest] at h
      cases h
      exact (hlegible.isComplaint_of_readManifest hmanifest).isOwn
  | ok manifest =>
      have hvisits := (Job.run_result_eq_error_iff hmanifest).mp h
      obtain ⟨modelId, -, -, hcompose⟩ := Job.failure_of_visitAll_missing hcheck (fun _ => id)
        (fun modelId hmem hprocessed => hmissing manifest hmanifest modelId
          (List.mem_filter.mpr ⟨hmem, hprocessed⟩)) hvisits
      obtain hinspect | ⟨reason, rfl⟩ := Job.failure_of_compose hcompose
      · exact ((hlegible.names manifest hmanifest).isComplaint_of_inspect hinspect).isOwn
      · exact ⟨reason.message, rfl⟩

/-- A session of `generate` whose run can only fail with a failure of the tool's own ends with an
exit code. -/
theorem generate_exits {mode : LogMode} {check : Bool}
    (h : ∀ failure, ((jobFor services outputDir? check).run (registryFor services manifest?)
      workspace).result = .error failure → failure.IsOwn) :
    ∃ code ≤ 2, (generate services console mode workspace manifest? outputDir? check).ending =
      .exit code := by
  unfold generate
  dsimp only
  split
  next failure hfailure =>
    exact ⟨2, Nat.le_refl 2, showFailure_of_isOwn console (h failure hfailure)⟩
  next report hreport =>
    refine ⟨if report.isStale then 1 else 0, ?_, rfl⟩
    split <;> decide

/-- A command that only looks at a legible file ends with an exit code exactly if the output stream
takes its lines: it leads to a text in memory, or the lines are of characters. -/
theorem execute_exits_iff (hlegible : Registry.Legible workspace path)
    (h : OnlyLooks services workspace path command) :
    (∃ code ≤ 2, (execute services console sink records workspace command).ending = .exit code) ↔
      (sink = .bytes → PrintsCharacters services workspace command) := by
  cases command with
  | models manifest? =>
      have hregistry : registryFor services manifest? = .atPath path := h
      dsimp only [execute, PrintsCharacters]
      rw [hregistry]
      exact models_exits_iff hlegible
  | inspect model manifest? json verbose =>
      have hregistry : registryFor services manifest? = .atPath path := h
      dsimp only [execute, PrintsCharacters]
      rw [hregistry]
      exact inspect_exits_iff hlegible {} model json
  | generate manifest? outputDir? check verbose =>
      obtain ⟨hregistry, hcheck, hmissing⟩ := h
      refine iff_of_true (generate_exits fun failure hfailure => ?_) fun _ => trivial
      rw [hregistry] at hfailure
      exact isOwn_of_check hlegible hcheck hmissing hfailure

end

end Session

section

variable [Stack]

/-- The queries that a registry of a path starts with are answered or complained about exactly if
the file there is legible: what stands at the path can be told, the bytes of a file are a document
or no YAML, and everything that is read as a name has a text. Then a session that has found its
settings and only looks at that file ends with the exit code 0, 1 or 2 exactly if its answer is of
characters or the output stream does not lead to bytes. -/
theorem settles_and_exits (workspace : Workspace) (path : String) :
    (Registry.Settles workspace path ↔ Registry.Legible workspace path) ∧
    ∀ services records noColor? sink words command, Registry.Legible workspace path →
      Services.start workspace = (.ok services, records) →
      Request.parse words = .perform command →
      Session.OnlyLooks services workspace path command →
      ((∃ code ≤ 2, (Session.run workspace noColor? sink words).ending = .exit code) ↔
        (sink = .bytes → Session.PrintsCharacters services workspace command)) := by
  refine ⟨Registry.settles_iff_legible, ?_⟩
  intro services records noColor? sink words command hlegible hstart hwords hlooks
  rw [Session.run_eq_execute hstart hwords]
  exact Session.execute_exits_iff hlegible hlooks

end

open scoped Stack

/-- A file with a bracket that is never closed is no YAML, so it is legible, and a check of it ends
with an exit code. -/
theorem settles_and_exits_bracket :
    let workspace : Workspace :=
      ⟨FileTree.empty.place ["m.yml"] (.file "models: [\n".toUTF8), []⟩
    Registry.Legible workspace "m.yml" ∧
      ∃ code ≤ 2, (Session.run workspace none .bytes
        ["generate", "--check", "-m", "m.yml"]).ending = .exit code := by
  intro workspace
  have hreply : (Registry.atPath "m.yml").answer workspace Query.modelIds.ask =
      .error (.complaint (.unparsable "m.yml")) := by decide +kernel
  have hread : Registry.readManifest workspace "m.yml" =
      .error (.complaint (.unparsable "m.yml")) := by
    obtain hmanifest | ⟨manifest, -, hids⟩ := bind_eq_error_iff.mp hreply
    · exact hmanifest
    · cases hids
  have hwords : Request.parse ["generate", "--check", "-m", "m.yml"] =
      .perform (.generate (some "m.yml") none true false) := by decide +kernel
  have hsettings : (Services.start workspace).1.isOk = true := by decide +kernel
  obtain ⟨hlegible, hexits⟩ := settles_and_exits workspace "m.yml"
  have hfile : Registry.Legible workspace "m.yml" := by
    refine hlegible.mp fun query failure hfailure => ?_
    obtain hmanifest | ⟨manifest, hmanifest, -⟩ := bind_eq_error_iff.mp hfailure
    · exact ⟨_, Except.error.inj (hmanifest.symm.trans hread)⟩
    · cases hread.symm.trans hmanifest
  refine ⟨hfile, ?_⟩
  cases hstart : Services.start workspace with
  | mk found records =>
      cases found with
      | error failure =>
          rw [hstart] at hsettings
          cases hsettings
      | ok services =>
          refine (hexits services records none .bytes _ _ hfile hstart hwords
            ⟨rfl, rfl, ?_⟩).mpr fun _ => trivial
          intro _ manifest hmanifest
          cases hread.symm.trans hmanifest

/-- The first query about a file that is not text, and one about a file with a date that does not
exist, fail without a complaint, and so the lists of the models crash. -/
theorem not_settles_garbled :
    let garbled : Workspace :=
      ⟨FileTree.empty.place ["m.yml"] (.file ("models: ".toUTF8.push 0xff)), []⟩
    let dated : Workspace :=
      ⟨FileTree.empty.place ["m.yml"] (.file "models: 2020-13-45\n".toUTF8), []⟩
    ¬ Registry.Settles garbled "m.yml" ∧ ¬ Registry.Settles dated "m.yml" ∧
      (Session.run garbled none .bytes ["models", "-m", "m.yml"]).ending =
        .crash (.file .undecodable) ∧
      (Session.run dated none .bytes ["models", "-m", "m.yml"]).ending =
        .crash (.scalar .impossible) := by
  intro garbled dated
  have hgarbled : (Registry.atPath "m.yml").answer garbled Query.modelIds.ask =
      .error (.file .undecodable) := by decide +kernel
  have hdated : (Registry.atPath "m.yml").answer dated Query.modelIds.ask =
      .error (.scalar .impossible) := by decide +kernel
  refine ⟨fun h => ?_, fun h => ?_, by decide +kernel, by decide +kernel⟩
  · obtain ⟨reason, hreason⟩ := h .modelIds _ hgarbled
    cases hreason
  · obtain ⟨reason, hreason⟩ := h .modelIds _ hdated
    cases hreason

end MachineRbi.CommandLine
