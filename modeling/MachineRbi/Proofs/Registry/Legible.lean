import MachineRbi.Proofs.Manifest.Consistency
import MachineRbi.Proofs.Registry

/-!
# Files that make no query fail in another way

A query of a registry is to answer or to complain. Whether the file at its path can be relied on for
that is decided in three stages: what stands at the path, whether the bytes are a document or no
YAML, and whether everything that is read as a name has a text. `settles_iff_legible` says that
these are the only ways to fail without a complaint.
-/

namespace MachineRbi

variable {failure : Failure} {source : String}

/-- The failure is a complaint about a manifest, or about a question to it. -/
def Failure.IsComplaint (failure : Failure) : Prop :=
  ∃ reason, failure = .complaint reason

/-- A complaint has a wording. -/
theorem Failure.IsComplaint.isOwn (h : failure.IsComplaint) : failure.IsOwn := by
  obtain ⟨reason, rfl⟩ := h
  exact ⟨reason.message, rfl⟩

/-- A value that cannot be written is not complained about. -/
theorem Failure.not_isComplaint_unwritable (reason : Unwritable) :
    ¬ (Failure.unwritable reason).IsComplaint := by
  rintro ⟨complaint, h⟩
  cases h

/-! ## Manifests -/

namespace Manifest

variable {manifest : Manifest} {document : Value} {id name : WideText} {types : TypeVocabulary}

variable [Stack]

/-- Everything that queries read as a name has a text: the keys of the state machines, and the parts
of every body that a name leads to. -/
structure Spelled (manifest : Manifest) : Prop where
  keys : ∀ model ∈ manifest.models, ¬ model.HasLongKey
  bodies : ∀ model ∈ manifest.models, ∀ name body outline,
    model.machine? name = .ok (some body) → body.outline? = some outline → outline.Spelled

omit [Stack] in
/-- A document whose keys can be read has a manifest, or there is a complaint. -/
theorem isComplaint_of_ofValue (hkeys : ∀ entry, Reaches source document entry → ¬ entry.1.IsLong)
    (h : ofValue source document = .error failure) : failure.IsComplaint := by
  obtain rfl | rfl | ⟨entry, hreaches, hentry⟩ := failure_of_ofValue h
  · exact ⟨_, rfl⟩
  · exact ⟨_, rfl⟩
  · obtain ⟨hlong, -⟩ | ⟨id, -, rfl | rfl⟩ := Model.failure_of_ofEntry hentry
    · exact (hkeys entry hreaches hlong).elim
    · exact ⟨_, rfl⟩
    · exact ⟨_, rfl⟩

omit [Stack] in
/-- A model that is not found is complained about. -/
theorem isComplaint_of_model (h : manifest.model id = .error failure) : failure.IsComplaint := by
  unfold Manifest.model at h
  split at h
  next => cases h
  next =>
    cases h
    exact ⟨_, rfl⟩

/-- A body without a spelling mistake gives a state machine, or there is a complaint. -/
theorem isComplaint_of_ofBody {model : WideText} {body : Value}
    (hspelled : ∀ outline, body.outline? = some outline → outline.Spelled)
    (h : Machine.ofBody source model name body = .error failure) : failure.IsComplaint := by
  cases houtline : body.outline? with
  | none =>
      rw [Machine.ofBody_of_none houtline] at h
      cases h
      exact ⟨_, rfl⟩
  | some outline =>
      obtain ⟨-, ⟨machine, hread⟩ | ⟨key, hread⟩⟩ | ⟨hmistake, -⟩ :=
        Machine.ofBody_cases source model name houtline
      · rw [hread] at h
        cases h
      · rw [hread] at h
        cases h
        exact ⟨_, rfl⟩
      · exact (hmistake (hspelled outline houtline)).elim

namespace Spelled

/-- The state machines of a model can be listed. -/
theorem machines (h : manifest.Spelled) {model : Model} (hmodel : model ∈ manifest.models) :
    ∃ bindings, model.machines = .ok bindings :=
  Model.exists_machines_iff.mpr (h.keys model hmodel)

/-- A query is answered, or there is a complaint. -/
theorem isComplaint_of_ask (h : manifest.Spelled) {query : Query}
    (hfailure : query.ask manifest = .error failure) : failure.IsComplaint := by
  cases query with
  | modelIds => cases hfailure
  | isCapable id =>
      exact isComplaint_of_model (map_eq_error_iff.mp (map_eq_error_iff.mp hfailure))
  | machineNames id =>
      obtain hmodel | ⟨model, hmodel, hnames⟩ :=
        bind_eq_error_iff.mp (map_eq_error_iff.mp hfailure)
      · exact isComplaint_of_model hmodel
      · obtain ⟨bindings, hbindings⟩ := h.machines (mem_of_model hmodel).1
        rw [hbindings] at hnames
        cases hnames
  | machine id name =>
      obtain hmodel | ⟨model, hmodel, hmachine⟩ :=
        bind_eq_error_iff.mp (map_eq_error_iff.mp hfailure)
      · exact isComplaint_of_model hmodel
      · have hmem := (mem_of_model hmodel).1
        obtain ⟨bindings, hbindings⟩ := h.machines hmem
        obtain hfound | ⟨body?, hfound, hbody⟩ := bind_eq_error_iff.mp hmachine
        · unfold Model.machine? at hfound
          rw [hbindings] at hfound
          cases hfound
        · cases body? with
          | none =>
              cases hbody
              exact ⟨_, rfl⟩
          | some body =>
              exact isComplaint_of_ofBody
                (fun outline => h.bodies model hmem name body outline hfound) hbody

/-- A model can be inspected, or there is a complaint. -/
theorem isComplaint_of_inspect (h : manifest.Spelled)
    (hfailure : manifest.inspect types id = .error failure) : failure.IsComplaint := by
  obtain hcapable | hnames | ⟨names, -, name, -, hresolve⟩ := failure_of_inspect hfailure
  · exact h.isComplaint_of_ask (show (Query.isCapable id).ask manifest = _ from
      map_eq_error_iff.mpr hcapable)
  · exact h.isComplaint_of_ask (show (Query.machineNames id).ask manifest = _ from
      map_eq_error_iff.mpr hnames)
  · exact h.isComplaint_of_ask (show (Query.machine id name).ask manifest = _ from
      map_eq_error_iff.mpr hresolve)

end Spelled

/-- If all queries of the manifest of a document are answered or complained about, then everything
that they read as a name has a text. -/
theorem spelled_of_ask (hnodup : manifest.modelIds.Nodup)
    (h : ∀ (query : Query) failure, query.ask manifest = .error failure → failure.IsComplaint) :
    manifest.Spelled := by
  constructor
  · intro model hmem hlong
    have hnames : manifest.machineNames model.id = .error (.unwritable .longNumber) := by
      simp [machineNames, model_eq_ok hnodup hmem, Model.machines_eq_error hlong, bind,
        Except.bind]
    exact Failure.not_isComplaint_unwritable _
      (h (.machineNames model.id) _ (map_eq_error_iff.mpr hnames))
  · intro model hmem name body outline hbody houtline
    obtain ⟨hspelled, -⟩ | ⟨-, reason, hread⟩ :=
      Machine.ofBody_cases manifest.source model.id name houtline
    · exact hspelled
    · exfalso
      have hresolve : manifest.resolve model.id name = .error (.unwritable reason) := by
        simp [resolve, model_eq_ok hnodup hmem, hbody, hread, bind, Except.bind]
      exact Failure.not_isComplaint_unwritable _
        (h (.machine model.id name) _ (map_eq_error_iff.mpr hresolve))

end Manifest

/-! ## Files -/

namespace Registry

variable {workspace : Workspace} {path : String}

variable [Stack]

/-- Every query that a registry of the path starts with is answered, or there is a complaint. -/
def Settles (workspace : Workspace) (path : String) : Prop :=
  ∀ (query : Query) failure, (atPath path).answer workspace query.ask = .error failure →
    failure.IsComplaint

/-- The file at a path makes no query fail without a complaint. -/
structure Legible (workspace : Workspace) (path : String) : Prop where
  /-- The files can tell what stands at the path, if anything. -/
  found : ∃ stands?, workspace.find? (Path.ofText path) = .ok stands?
  /-- The bytes of a file there are a document, or no YAML at all. -/
  parsed : ∀ bytes fault, workspace.find? (Path.ofText path) = .ok (some (.file bytes)) →
    Yaml.parse bytes = .error fault → fault = .malformed
  /-- No key of the models that reading comes to is too long. -/
  keys : ∀ document entry, readDocument workspace path = .ok document →
    Manifest.Reaches path document entry → ¬ entry.1.IsLong
  /-- Everything in the manifest that queries read as a name has a text. -/
  names : ∀ manifest, readManifest workspace path = .ok manifest → manifest.Spelled

/-- A manifest that cannot be read from a file which is legible is complained about. -/
theorem Legible.isComplaint_of_readManifest (h : Legible workspace path)
    (hfailure : readManifest workspace path = .error failure) : failure.IsComplaint := by
  obtain hdocument | ⟨document, hdocument, hmanifest⟩ := bind_eq_error_iff.mp hfailure
  · rw [readDocument_eq_documentIn] at hdocument
    obtain ⟨fault, hfault, -⟩ | rfl | ⟨bytes, fault, hbytes, hparse, rfl⟩ :=
      failure_of_documentIn hdocument
    · obtain ⟨stands?, hentry⟩ := h.found
      rw [hfault] at hentry
      cases hentry
    · exact ⟨_, rfl⟩
    · rw [h.parsed bytes fault hbytes hparse]
      exact ⟨_, rfl⟩
  · exact Manifest.isComplaint_of_ofValue (fun entry => h.keys document entry hdocument) hmanifest

/-- Queries are settled by files that are legible, and by no others. -/
theorem settles_iff_legible : Settles workspace path ↔ Legible workspace path := by
  constructor
  · intro h
    have hread : ∀ failure, readManifest workspace path = .error failure → failure.IsComplaint := by
      intro failure hfailure
      exact h .modelIds failure (bind_eq_error_iff.mpr (.inl hfailure))
    -- Without any of the four conditions there is a query that fails without a complaint.
    refine ⟨?_, ?_, ?_, ?_⟩
    · cases hfound : workspace.find? (Path.ofText path) with
      | ok stands? => exact ⟨stands?, rfl⟩
      | error fault =>
          have hdocument : readDocument workspace path = .error (.file fault) := by
            rw [readDocument_eq_documentIn, hfound, documentIn]
          obtain ⟨reason, hreason⟩ := hread _ (bind_eq_error_iff.mpr (.inl hdocument))
          cases hreason
    · intro bytes fault hfound hparse
      have hdocument : readDocument workspace path = .error (failureOf path fault) := by
        rw [readDocument_eq_documentIn, hfound, documentIn, hparse]
        rfl
      obtain ⟨reason, hreason⟩ := hread _ (bind_eq_error_iff.mpr (.inl hdocument))
      cases fault <;> first | rfl | cases hreason
    · intro document entry hdocument hreaches hlong
      have hmanifest := Manifest.ofValue_eq_error hreaches
        (Model.ofEntry_of_isLong hlong path entry.2)
      exact Failure.not_isComplaint_unwritable _
        (hread _ (bind_eq_error_iff.mpr (.inr ⟨document, hdocument, hmanifest⟩)))
    · intro manifest hmanifest
      obtain ⟨document, -, hdocument⟩ := bind_eq_ok_iff.mp hmanifest
      refine Manifest.spelled_of_ask (Manifest.nodup_modelIds hdocument) ?_
      intro query failure hfailure
      exact h query failure (bind_eq_error_iff.mpr (.inr ⟨manifest, hmanifest, hfailure⟩))
  · intro h query failure hfailure
    obtain hmanifest | ⟨manifest, hmanifest, hquery⟩ := bind_eq_error_iff.mp hfailure
    · exact h.isComplaint_of_readManifest hmanifest
    · exact (h.names manifest hmanifest).isComplaint_of_ask hquery

end Registry

end MachineRbi
