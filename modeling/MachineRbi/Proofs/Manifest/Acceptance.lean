import MachineRbi.Proofs.Manifest.Consistency
import MachineRbi.Proofs.Manifest.Reordering

/-!
# Which documents are manifests, and what they say

Nothing may stand where a mapping belongs, but in some places anything that is not truthy may stand
there too. `outcome_of_ofValue` says which documents are accepted, and with which failure the others
are not. The last of the entries whose keys have the same text counts (`model_of_isLast`,
`machine?_of_isLast`), so an accepted document answers every question about a state machine from
two entries, and `readsExactly` says how.
-/

namespace MachineRbi

/-! ## Shapes -/

namespace Value

variable {value : Value}

/-- The value is neither nothing nor a mapping. -/
def NoEntries (value : Value) : Prop :=
  value.isNull = false ∧ value.entries? = none

/-- The value is truthy, and it is no mapping. -/
def NoFields (value : Value) : Prop :=
  value.isTruthy = true ∧ value.entries? = none

/-- The value is truthy, and it is no list. -/
def NoItems (value : Value) : Prop :=
  value.isTruthy = true ∧ value.items? = none

/-- The value is no entry of a model: it or what it says under `state_machines` is neither nothing
nor a mapping. -/
def NoModel (value : Value) : Prop :=
  value.NoEntries ∨ ∃ fields, value.entriesIfAny? = some fields ∧
    (fields.valueOf "state_machines").NoEntries

/-- The entries under `state_machines` in the entry of a model; nothing has no entries. -/
def machineEntries (value : Value) : Entries :=
  ((value.entriesIfAny?.getD []).valueOf "state_machines").entriesIfAny?.getD []

/-- Only nothing and a mapping have entries. -/
theorem entriesIfAny?_eq_none_iff : value.entriesIfAny? = none ↔ value.NoEntries := by
  unfold entriesIfAny? NoEntries
  cases value.isNull <;> simp

/-- Only a mapping and what is not truthy have fields. -/
theorem entriesIfTruthy?_eq_none_iff : value.entriesIfTruthy? = none ↔ value.NoFields := by
  unfold entriesIfTruthy? NoFields
  cases value.isTruthy <;> simp

/-- Only a list and what is not truthy have names. -/
theorem namesIfList?_eq_none_iff [Stack] : value.namesIfList? = none ↔ value.NoItems := by
  unfold namesIfList? NoItems
  cases value.isTruthy <;> simp

end Value

/-- The manifest is at fault, and not a question about it. -/
def Failure.IsManifestFault (failure : Failure) : Prop :=
  (∃ reason, failure = .complaint reason) ∧ ¬ failure.IsUnknown

/-! ## Entries of models -/

namespace Model

variable {source : String} {key : Scalar} {value : Value} {id : WideText}

/-- What is no entry of a model is the fault of the manifest. -/
theorem ofEntry_of_noModel (source : String) (hname : key.name = .ok id) (h : value.NoModel) :
    ∃ failure, ofEntry source key value = .error failure ∧ failure.IsManifestFault := by
  simp only [ofEntry, hname, bind, Except.bind]
  obtain hnone | ⟨fields, hfields, hmachines⟩ := h
  · rw [Value.entriesIfAny?_eq_none_iff.mpr hnone]
    exact ⟨_, rfl, ⟨_, rfl⟩, fun hunknown => hunknown⟩
  · rw [hfields]
    dsimp only
    unfold Entries.valueOf at hmachines
    cases hget : fields.get? "state_machines" with
    | none =>
        -- Nothing stands under `state_machines` then, and that is a list without machines.
        rw [hget] at hmachines
        cases hmachines.1
    | some machines =>
        rw [hget, Option.getD_some] at hmachines
        dsimp only
        rw [Value.entriesIfAny?_eq_none_iff.mpr hmachines]
        exact ⟨_, rfl, ⟨_, rfl⟩, fun hunknown => hunknown⟩

/-- An entry gives a model with the state machines that it says. -/
theorem ofEntry_of_not_noModel (source : String) (hname : key.name = .ok id)
    (h : ¬ value.NoModel) :
    ∃ model, ofEntry source key value = .ok model ∧ model.id = id ∧
      model.machineEntries = value.machineEntries := by
  simp only [ofEntry, hname, bind, Except.bind]
  unfold Value.machineEntries Entries.valueOf
  cases hfields : value.entriesIfAny? with
  | none => exact absurd (.inl (Value.entriesIfAny?_eq_none_iff.mp hfields)) h
  | some fields =>
      dsimp only [Option.getD_some]
      cases hget : fields.get? "state_machines" with
      | none => exact ⟨_, rfl, rfl, rfl⟩
      | some machines =>
          dsimp only [Option.getD_some]
          cases hbindings : machines.entriesIfAny? with
          | none =>
              have hmachines := Value.entriesIfAny?_eq_none_iff.mp hbindings
              refine absurd (.inr ⟨fields, hfields, ?_⟩) h
              rwa [Entries.valueOf, hget]
          | some bindings => exact ⟨_, rfl, rfl, rfl⟩

end Model

/-! ## Documents -/

namespace Manifest

variable {source : String} {document : Value} {manifest : Manifest}

/-- The document is nothing that could be a manifest: not as a whole, or not in what it says under
`models`, or not in an entry there. -/
inductive Malformed (document : Value) : Prop
  | topLevel (h : document.NoEntries)
  | models {fields : Entries} (hfields : document.entriesIfAny? = some fields)
      (h : (fields.valueOf "models").NoFields)
  | entry {entry : Scalar × Value} (hmem : entry ∈ modelEntries document) (h : entry.2.NoModel)

/-- The entry gives a model. -/
def IsSound (entry : Scalar × Value) : Prop :=
  ¬ entry.1.IsLong ∧ ¬ entry.2.NoModel

/-- The first thing wrong with a model is a key of more than 4300 digits. -/
def LongKeyFirst (document : Value) : Prop :=
  ∃ front entry back, modelEntries document = front ++ entry :: back ∧
    (∀ other ∈ front, IsSound other) ∧ entry.1.IsLong

/-- A sound entry gives a model with its state machines under the text of its key. -/
theorem exists_ofEntry_of_isSound {entry : Scalar × Value} (h : IsSound entry) (source : String) :
    ∃ model, Model.ofEntry source entry.1 entry.2 = .ok model ∧
      entry.1.name = .ok model.id ∧ model.machineEntries = entry.2.machineEntries := by
  obtain ⟨id, hname⟩ := Scalar.exists_name_iff.mpr h.1
  obtain ⟨model, hread, rfl, hmachines⟩ := Model.ofEntry_of_not_noModel source hname h.2
  exact ⟨model, hread, hname, hmachines⟩

/-- A document that is no mapping of models is malformed; any other lists its entries. -/
theorem lists_or_malformed (document : Value) :
    Lists document (modelEntries document) ∨
      (Malformed document ∧ modelEntries document = [] ∧ ∀ source, ∃ failure,
        ofValue source document = .error failure ∧ failure.IsManifestFault) := by
  unfold Lists modelEntries ofValue
  cases hfields : document.entriesIfAny? with
  | none =>
      refine .inr ⟨.topLevel (Value.entriesIfAny?_eq_none_iff.mp hfields), rfl, fun source => ?_⟩
      exact ⟨_, rfl, ⟨_, rfl⟩, fun hunknown => hunknown⟩
  | some fields =>
      dsimp only [Option.getD_some]
      cases hentries : (fields.valueOf "models").entriesIfTruthy? with
      | none =>
          have hmodels := Value.entriesIfTruthy?_eq_none_iff.mp hentries
          refine .inr ⟨.models hfields hmodels, rfl, fun source => ?_⟩
          exact ⟨_, rfl, ⟨_, rfl⟩, fun hunknown => hunknown⟩
      | some entries => exact .inl ⟨fields, rfl, by rw [hentries]; rfl⟩

/-- Entries are sound, or there is a first one that is not. -/
theorem isSound_or_first (entries : Entries) :
    (∀ entry ∈ entries, IsSound entry) ∨
      ∃ front entry back, entries = front ++ entry :: back ∧ (∀ other ∈ front, IsSound other) ∧
        ¬ IsSound entry := by
  induction entries with
  | nil => exact .inl nofun
  | cons first rest ih =>
      by_cases hfirst : IsSound first
      · obtain hall | ⟨front, entry, back, rfl, hfront, hentry⟩ := ih
        · exact .inl (List.forall_mem_cons.mpr ⟨hfirst, hall⟩)
        · exact .inr ⟨first :: front, entry, back, rfl,
            List.forall_mem_cons.mpr ⟨hfirst, hfront⟩, hentry⟩
      · exact .inr ⟨[], first, rest, rfl, nofun, hfirst⟩

/-- If the first thing wrong is a long key then the key has no text, and that is the failure. -/
theorem ofValue_of_longKeyFirst (h : LongKeyFirst document) (source : String) :
    ofValue source document = .error (.unwritable .longNumber) := by
  obtain ⟨front, entry, back, hsplit, hfront, hlong⟩ := h
  refine ofValue_eq_error ⟨front, back, hsplit, fun other hother => ?_⟩
    (Model.ofEntry_of_isLong hlong source entry.2)
  obtain ⟨model, hread, -⟩ := exists_ofEntry_of_isSound (hfront other hother) source
  exact ⟨model, hread⟩

/-- A document that lists its entries is malformed only in one of them. -/
theorem Lists.malformed_iff {entries : Entries} (h : Lists document entries) :
    Malformed document ↔ ∃ entry ∈ entries, entry.2.NoModel := by
  constructor
  · intro hmalformed
    cases hmalformed with
    | topLevel hnone =>
        obtain ⟨fields, hfields, -⟩ := h
        rw [Value.entriesIfAny?_eq_none_iff.mpr hnone] at hfields
        cases hfields
    | models hfields hnone =>
        obtain ⟨fields, hread, hentries⟩ := h
        rw [hfields] at hread
        cases hread
        rw [Value.entriesIfTruthy?_eq_none_iff.mpr hnone] at hentries
        cases hentries
    | entry hmem hnone => exact ⟨_, h.modelEntries_eq ▸ hmem, hnone⟩
  · rintro ⟨entry, hmem, hnone⟩
    exact .entry (h.modelEntries_eq.symm ▸ hmem) hnone

/-- A document with sound entries is accepted. -/
theorem Lists.exists_ofValue {entries : Entries} (h : Lists document entries)
    (hall : ∀ entry ∈ entries, IsSound entry) (source : String) :
    ∃ manifest, ofValue source document = .ok manifest := by
  obtain ⟨models, hmodels⟩ := exists_mapM_eq_ok_iff.mpr fun entry hmem =>
    (exists_ofEntry_of_isSound (hall entry hmem) source).imp fun _ hread => hread.1
  exact ⟨_, ofValue_of_models h (mapM_eq_ok_iff.mp hmodels)⟩

/-- A document is accepted if it is not malformed and all its entries are sound. Otherwise the
manifest is at fault, or a key comes first that is too long. -/
theorem outcome_of_ofValue (source : String) (document : Value) :
    (¬ Malformed document ∧ (∀ entry ∈ modelEntries document, IsSound entry) ∧
        ∃ manifest, ofValue source document = .ok manifest) ∨
      (Malformed document ∧ ∃ failure, ofValue source document = .error failure ∧
        failure.IsManifestFault) ∨
      LongKeyFirst document := by
  obtain hlists | ⟨hmalformed, -, hfault⟩ := lists_or_malformed document
  · obtain hall | ⟨front, entry, back, hsplit, hfront, hentry⟩ :=
      isSound_or_first (modelEntries document)
    · refine .inl ⟨fun hmalformed => ?_, hall, hlists.exists_ofValue hall source⟩
      obtain ⟨entry, hmem, hnone⟩ := hlists.malformed_iff.mp hmalformed
      exact (hall entry hmem).2 hnone
    · by_cases hlong : entry.1.IsLong
      · exact .inr (.inr ⟨front, entry, back, hsplit, hfront, hlong⟩)
      · have hnone : entry.2.NoModel := not_not.mp fun hmodel => hentry ⟨hlong, hmodel⟩
        have hmem : entry ∈ modelEntries document := by
          rw [hsplit]
          exact List.mem_append_right _ List.mem_cons_self
        obtain ⟨id, hname⟩ := Scalar.exists_name_iff.mpr hlong
        obtain ⟨failure, hread, hfault⟩ := Model.ofEntry_of_noModel source hname hnone
        refine .inr (.inl ⟨hlists.malformed_iff.mpr ⟨entry, hmem, hnone⟩, failure, ?_, hfault⟩)
        refine ofValue_eq_error ⟨front, back, hsplit, fun other hother => ?_⟩ hread
        exact (exists_ofEntry_of_isSound (hfront other hother) source).imp fun _ h => h.1
  · exact .inr (.inl ⟨hmalformed, hfault source⟩)

/-! ## The last entry of a name -/

/-- The text of no key is the name. -/
def Lacks (entries : Entries) (name : WideText) : Prop :=
  ∀ entry ∈ entries, entry.1.name ≠ .ok name

/-- The value stands under the last key whose text is the name. -/
def IsLast (entries : Entries) (name : WideText) (value : Value) : Prop :=
  ∃ front key back, entries = front ++ (key, value) :: back ∧ key.name = .ok name ∧
    Lacks back name

/-- A name that is the text of a key is that of a last one. -/
theorem lacks_or_isLast (entries : Entries) (name : WideText) :
    Lacks entries name ∨ ∃ value, IsLast entries name value := by
  induction entries with
  | nil => exact .inl nofun
  | cons first rest ih =>
      obtain hlacks | ⟨value, front, key, back, rfl, hname, hback⟩ := ih
      · by_cases hfirst : first.1.name = .ok name
        · exact .inr ⟨first.2, [], first.1, rest, rfl, hfirst, hlacks⟩
        · exact .inl (List.forall_mem_cons.mpr ⟨hfirst, hlacks⟩)
      · exact .inr ⟨value, first :: front, key, back, rfl, hname, hback⟩

end Manifest

namespace Model

/-- An inserted model is found under its id; under any other id the same is found as before. -/
theorem find?_insert (models : List Model) (model : Model) (id : WideText) :
    (insert models model).find? (·.id = id) =
      if model.id = id then some model else models.find? (·.id = id) := by
  induction models with
  | nil =>
      by_cases hmodel : model.id = id <;> simp [insert, hmodel]
  | cons other rest ih =>
      unfold insert
      by_cases hsame : other.id = model.id
      · rw [if_pos hsame, List.find?_cons, List.find?_cons, hsame]
        by_cases hmodel : model.id = id <;> simp [hmodel]
      · rw [if_neg hsame, List.find?_cons, ih, List.find?_cons]
        by_cases hother : other.id = id
        · have hmodel : model.id ≠ id := fun hid => hsame (hother.trans hid.symm)
          simp [hother, hmodel]
        · simp [hother]

/-- Of models that are put one after another, the last one with an id is found under it. -/
theorem find?_foldl_insert (models others : List Model) (id : WideText) :
    (others.foldl insert models).find? (·.id = id) =
      (others.reverse.find? (·.id = id)).or (models.find? (·.id = id)) := by
  induction others generalizing models with
  | nil => rfl
  | cons other rest ih =>
      rw [List.foldl_cons, ih, find?_insert, List.reverse_cons, List.find?_append]
      by_cases hother : other.id = id <;>
        cases rest.reverse.find? (·.id = id) <;> simp [hother]

/-- A model that an entry gives has the state machines that the entry says. -/
theorem machineEntries_of_ofEntry {source : String} {key : Scalar} {value : Value} {model : Model}
    (h : ofEntry source key value = .ok model) : model.machineEntries = value.machineEntries := by
  have hname := name_of_ofEntry h
  by_cases hnone : value.NoModel
  · obtain ⟨failure, hread, -⟩ := ofEntry_of_noModel source hname hnone
    rw [h] at hread
    cases hread
  · obtain ⟨other, hread, -, hmachines⟩ := ofEntry_of_not_noModel source hname hnone
    rw [h] at hread
    cases hread
    exact hmachines

end Model

namespace Manifest

/-! ## Looking up -/

section Last

variable {α : Type} {entries : Entries} {items : List α} {name : WideText} {value : Value}

/-- If no key has the name then nothing that is read of the entries is tagged with it. -/
theorem tag_ne_of_lacks (tag : α → WideText)
    (h : List.Forall₂ (fun entry item => entry.1.name = .ok (tag item)) entries items)
    (hlacks : Lacks entries name) : ∀ item ∈ items, tag item ≠ name := by
  induction h with
  | nil => exact nofun
  | cons hfirst hrest ih =>
      obtain ⟨hname, hlacks⟩ := List.forall_mem_cons.mp hlacks
      refine List.forall_mem_cons.mpr ⟨fun htag => hname ?_, ih hlacks⟩
      rw [hfirst, htag]

/-- What is read of the last entry of a name is the last that is tagged with it. -/
theorem exists_last_of_isLast (tag : α → WideText) (Says : Value → α → Prop)
    (h : List.Forall₂ (fun entry item => entry.1.name = .ok (tag item) ∧ Says entry.2 item)
      entries items) (hlast : IsLast entries name value) :
    ∃ front item back, items = front ++ item :: back ∧ tag item = name ∧ Says value item ∧
      ∀ other ∈ back, tag other ≠ name := by
  obtain ⟨front, key, back, rfl, hname, hback⟩ := hlast
  induction front generalizing items with
  | nil =>
      cases h with
      | cons hfirst hrest =>
          have htag := hfirst.1.symm.trans hname
          have hothers := tag_ne_of_lacks tag (hrest.imp fun _ _ hread => hread.1) hback
          exact ⟨[], _, _, rfl, Except.ok.inj htag, hfirst.2, hothers⟩
  | cons first front ih =>
      cases h with
      | cons hfirst hrest =>
          obtain ⟨others, item, rest, rfl, htag, hitem, hrest⟩ := ih hrest
          exact ⟨_ :: others, item, rest, rfl, htag, hitem, hrest⟩

end Last

variable {source : String} {document : Value} {manifest : Manifest} {id name : WideText}
  {entry body : Value}

/-- An accepted document gives models under the texts of its keys. -/
theorem exists_models (h : ofValue source document = .ok manifest) :
    ∃ models, List.Forall₂ (fun entry model => entry.1.name = .ok model.id ∧
        model.machineEntries = entry.2.machineEntries) (modelEntries document) models ∧
      ∀ id, manifest.models.find? (·.id = id) = models.reverse.find? (·.id = id) := by
  obtain ⟨models, hmodels, rfl⟩ := ofValue_eq_ok h
  refine ⟨models, hmodels.imp fun entry model hread => ?_, fun id => ?_⟩
  · exact ⟨Model.name_of_ofEntry hread, Model.machineEntries_of_ofEntry hread⟩
  · rw [Model.find?_foldl_insert, List.find?_nil, Option.or_none]

/-- An id that is the text of no key is unknown. -/
theorem model_of_lacks (h : ofValue source document = .ok manifest)
    (hlacks : Lacks (modelEntries document) id) :
    manifest.model id = .error (.complaint (.unknownModel manifest.source id)) := by
  obtain ⟨models, hmodels, hfind⟩ := exists_models h
  have htags := tag_ne_of_lacks Model.id (hmodels.imp fun _ _ hread => hread.1) hlacks
  have hnone : models.reverse.find? (·.id = id) = none := by
    rw [List.find?_eq_none]
    intro model hmem
    simpa using htags model (List.mem_reverse.mp hmem)
  rw [Manifest.model, hfind, hnone]

/-- Of the entries of an id the last one counts. -/
theorem model_of_isLast (h : ofValue source document = .ok manifest)
    (hlast : IsLast (modelEntries document) id entry) :
    ∃ model, manifest.model id = .ok model ∧ model.machineEntries = entry.machineEntries := by
  obtain ⟨models, hmodels, hfind⟩ := exists_models h
  obtain ⟨front, model, back, rfl, hid, hmachines, hback⟩ := exists_last_of_isLast Model.id
    (fun entry model => model.machineEntries = entry.machineEntries) hmodels hlast
  have hnone : back.reverse.find? (·.id = id) = none := by
    rw [List.find?_eq_none]
    intro other hmem
    simpa using hback other (List.mem_reverse.mp hmem)
  have hfound : (front ++ model :: back).reverse.find? (·.id = id) = some model := by
    rw [List.reverse_append, List.reverse_cons, List.find?_append, List.find?_append, hnone]
    simp [hid]
  exact ⟨model, by rw [Manifest.model, hfind, hfound], hmachines⟩

end Manifest

namespace Model

variable {model : Model} {name : WideText} {body : Value}

/-- A state machine is not found under a name that is the text of no key. -/
theorem machine?_of_lacks (hshort : ¬ model.HasLongKey)
    (h : Manifest.Lacks model.machineEntries name) : model.machine? name = .ok none := by
  obtain ⟨bindings, hbindings⟩ := exists_machines_iff.mpr hshort
  have htags := Manifest.tag_ne_of_lacks Prod.fst
    ((machines_eq_ok_iff.mp hbindings).imp fun _ _ hread => hread.1) h
  have hnone : bindings.reverse.lookup name = none := by
    rw [List.lookup_eq_none_iff]
    intro binding hmem
    simpa using Ne.symm (htags binding (List.mem_reverse.mp hmem))
  rw [machine?, hbindings, ← hnone]
  rfl

/-- Of the state machines of a name the last one counts. -/
theorem machine?_of_isLast (hshort : ¬ model.HasLongKey)
    (h : Manifest.IsLast model.machineEntries name body) :
    model.machine? name = .ok (some body) := by
  obtain ⟨bindings, hbindings⟩ := exists_machines_iff.mpr hshort
  obtain ⟨front, ⟨_, _⟩, back, rfl, rfl, rfl, hback⟩ :=
    Manifest.exists_last_of_isLast Prod.fst (fun body binding => body = binding.2)
      (machines_eq_ok_iff.mp hbindings) h
  rw [machine?, hbindings, ← lookup_reverse_of_last hback]
  rfl

end Model

/-! ## What a body describes -/

section

variable [Stack]

/-- The value lists these names: the texts of its items in order, or none if it is not truthy. -/
inductive Value.Names (value : Value) : List WideText → Prop
  | none (h : value.isTruthy = false) : value.Names []
  | items {items : List Value} {names : List WideText} (h : value.isTruthy = true)
      (hitems : value.items? = some items)
      (hnames : List.Forall₂ (fun item name => item.name Stack.names = .ok name) items names) :
      value.Names names

/-- An item of the list that the value is cannot be written, and no item before it. -/
def Value.Stops (value : Value) (reason : Unwritable) : Prop :=
  value.isTruthy = true ∧ ∃ front item back, value.items? = some (front ++ item :: back) ∧
    (∀ other ∈ front, ∃ name, other.name Stack.names = .ok name) ∧
    item.name Stack.names = .error (.unwritable reason)

/-- The value says no scope, or one of this name. -/
inductive Value.Scope (value : Value) : Option WideText → Prop
  | none (h : value.isNull = true) : value.Scope none
  | some {name : WideText} (h : value.isNull = false) (hname : value.name Stack.scopes = .ok name) :
      value.Scope (some name)

/-- What the fields of a body describe. The scope, the events and the states are read in this order,
so that what is wrong with one hides what is wrong behind it. -/
inductive FieldsDescribe (source : String) (id name : WideText) (fields : Entries) :
    Except Failure Machine → Prop
  | scope {reason : Unwritable} (h : (fields.valueOf "namespace").isNull = false)
      (hname : (fields.valueOf "namespace").name Stack.scopes = .error (.unwritable reason)) :
      FieldsDescribe source id name fields (.error (.unwritable reason))
  | noEvents {scope? : Option WideText} (hscope : (fields.valueOf "namespace").Scope scope?)
      (h : (fields.valueOf "events").NoItems) :
      FieldsDescribe source id name fields
        (.error (.complaint (.namesShape source id name "events")))
  | events {scope? : Option WideText} {reason : Unwritable}
      (hscope : (fields.valueOf "namespace").Scope scope?)
      (h : (fields.valueOf "events").Stops reason) :
      FieldsDescribe source id name fields (.error (.unwritable reason))
  | noStates {scope? : Option WideText} {events : List WideText}
      (hscope : (fields.valueOf "namespace").Scope scope?)
      (hevents : (fields.valueOf "events").Names events)
      (h : (fields.valueOf "states").NoItems) :
      FieldsDescribe source id name fields
        (.error (.complaint (.namesShape source id name "states")))
  | states {scope? : Option WideText} {events : List WideText} {reason : Unwritable}
      (hscope : (fields.valueOf "namespace").Scope scope?)
      (hevents : (fields.valueOf "events").Names events)
      (h : (fields.valueOf "states").Stops reason) :
      FieldsDescribe source id name fields (.error (.unwritable reason))
  | machine {scope? : Option WideText} {events states : List WideText}
      (hscope : (fields.valueOf "namespace").Scope scope?)
      (hevents : (fields.valueOf "events").Names events)
      (hstates : (fields.valueOf "states").Names states) :
      FieldsDescribe source id name fields (.ok ⟨name, scope?, events, states⟩)

/-- What a body describes. -/
inductive BodyDescribes (source : String) (id name : WideText) (body : Value) :
    Except Failure Machine → Prop
  | noMapping (h : body.NoFields) :
      BodyDescribes source id name body (.error (.complaint (.machineShape source id name)))
  | fields {fields : Entries} {answer : Except Failure Machine}
      (hfields : body.entriesIfTruthy? = some fields)
      (h : FieldsDescribe source id name fields answer) :
      BodyDescribes source id name body answer

end

namespace Value

variable {value : Value}

variable [Stack]

/-- Names are read as they are listed. -/
theorem namesIfList?_eq_ok_iff {names : List WideText} :
    value.namesIfList? = some (.ok names) ↔ value.Names names := by
  unfold namesIfList?
  cases htruthy : value.isTruthy with
  | false =>
      constructor
      · intro h
        obtain rfl : names = [] := by simpa using h.symm
        exact .none htruthy
      · intro h
        cases h with
        | none => rfl
        | items h => rw [htruthy] at h; cases h
  | true =>
      rw [if_pos rfl, Option.map_eq_some_iff]
      simp only [mapM_eq_ok_iff]
      constructor
      · rintro ⟨items, hitems, hnames⟩
        exact .items htruthy hitems hnames
      · intro h
        cases h with
        | none h => rw [htruthy] at h; cases h
        | items _ hitems hnames => exact ⟨_, hitems, hnames⟩

/-- Reading names stops at the first item that cannot be written. -/
theorem namesIfList?_eq_error_iff {reason : Unwritable} :
    value.namesIfList? = some (.error (.unwritable reason)) ↔ value.Stops reason := by
  unfold namesIfList? Stops
  cases value.isTruthy with
  | false => simp
  | true =>
      rw [if_pos rfl, Option.map_eq_some_iff]
      simp only [mapM_eq_error_iff, true_and]
      constructor
      · rintro ⟨items, hitems, front, item, back, rfl, hfront, hitem⟩
        exact ⟨front, item, back, hitems, hfront, hitem⟩
      · rintro ⟨front, item, back, hitems, hfront, hitem⟩
        exact ⟨_, hitems, front, item, back, rfl, hfront, hitem⟩

/-- The scope is read as it is said. -/
theorem nameIfAny_eq_ok_iff {scope? : Option WideText} :
    value.nameIfAny = .ok scope? ↔ value.Scope scope? := by
  unfold nameIfAny
  cases hnull : value.isNull with
  | true =>
      constructor
      · intro h
        obtain rfl : scope? = none := by simpa using h.symm
        exact .none hnull
      · intro h
        cases h with
        | none => rfl
        | some h => rw [hnull] at h; cases h
  | false =>
      simp only [Bool.false_eq_true, if_false, map_eq_ok_iff]
      constructor
      · rintro ⟨name, hname, rfl⟩
        exact .some hnull hname
      · intro h
        cases h with
        | none h => rw [hnull] at h; cases h
        | some _ hname => exact ⟨_, hname, rfl⟩

/-- The scope stops a reading if it is said and cannot be written. -/
theorem nameIfAny_eq_error_iff {failure : Failure} :
    value.nameIfAny = .error failure ↔
      value.isNull = false ∧ value.name Stack.scopes = .error failure := by
  unfold nameIfAny
  cases value.isNull <;> simp [map_eq_error_iff]

end Value

namespace Machine

variable {source : String} {id name : WideText} {fields : Entries} {body : Value}
  {answer : Except Failure Machine}

variable [Stack]

/-- What fields describe is what is read of them. -/
theorem ofBody_of_fieldsDescribe (hfields : body.entriesIfTruthy? = some fields)
    (h : FieldsDescribe source id name fields answer) : ofBody source id name body = answer := by
  rw [ofBody_eq, Value.outline?, hfields, Option.map_some, ofOutline]
  cases h with
  | scope hsaid hname =>
      rw [Value.nameIfAny_eq_error_iff.mpr ⟨hsaid, hname⟩]
      rfl
  | noEvents hscope hnone =>
      rw [Value.nameIfAny_eq_ok_iff.mpr hscope, Value.namesIfList?_eq_none_iff.mpr hnone]
      rfl
  | events hscope hstops =>
      rw [Value.nameIfAny_eq_ok_iff.mpr hscope, Value.namesIfList?_eq_error_iff.mpr hstops]
      rfl
  | noStates hscope hevents hnone =>
      rw [Value.nameIfAny_eq_ok_iff.mpr hscope, Value.namesIfList?_eq_ok_iff.mpr hevents,
        Value.namesIfList?_eq_none_iff.mpr hnone]
      rfl
  | states hscope hevents hstops =>
      rw [Value.nameIfAny_eq_ok_iff.mpr hscope, Value.namesIfList?_eq_ok_iff.mpr hevents,
        Value.namesIfList?_eq_error_iff.mpr hstops]
      rfl
  | machine hscope hevents hstates =>
      rw [Value.nameIfAny_eq_ok_iff.mpr hscope, Value.namesIfList?_eq_ok_iff.mpr hevents,
        Value.namesIfList?_eq_ok_iff.mpr hstates]
      rfl

/-- Fields describe something in every case. -/
theorem exists_fieldsDescribe (source : String) (id name : WideText) (fields : Entries) :
    ∃ answer, FieldsDescribe source id name fields answer := by
  -- The parts are read in this order, and what is wrong with one hides those behind it.
  cases hscope : (fields.valueOf "namespace").nameIfAny with
  | error failure =>
      obtain ⟨reason, rfl⟩ := Value.failure_of_nameIfAny hscope
      obtain ⟨hsaid, hname⟩ := Value.nameIfAny_eq_error_iff.mp hscope
      exact ⟨_, .scope hsaid hname⟩
  | ok scope? =>
      have hscope := Value.nameIfAny_eq_ok_iff.mp hscope
      cases hevents : (fields.valueOf "events").namesIfList? with
      | none => exact ⟨_, .noEvents hscope (Value.namesIfList?_eq_none_iff.mp hevents)⟩
      | some events =>
          cases events with
          | error failure =>
              obtain ⟨reason, rfl⟩ := Value.failure_of_namesIfList? hevents
              exact ⟨_, .events hscope (Value.namesIfList?_eq_error_iff.mp hevents)⟩
          | ok events =>
              have hevents := Value.namesIfList?_eq_ok_iff.mp hevents
              cases hstates : (fields.valueOf "states").namesIfList? with
              | none =>
                  have hnone := Value.namesIfList?_eq_none_iff.mp hstates
                  exact ⟨_, .noStates hscope hevents hnone⟩
              | some states =>
                  cases states with
                  | error failure =>
                      obtain ⟨reason, rfl⟩ := Value.failure_of_namesIfList? hstates
                      have hstops := Value.namesIfList?_eq_error_iff.mp hstates
                      exact ⟨_, .states hscope hevents hstops⟩
                  | ok states =>
                      have hstates := Value.namesIfList?_eq_ok_iff.mp hstates
                      exact ⟨_, .machine hscope hevents hstates⟩

/-- What a body describes is what is read of it. -/
theorem ofBody_of_bodyDescribes (h : BodyDescribes source id name body answer) :
    ofBody source id name body = answer := by
  cases h with
  | noMapping hnone =>
      refine ofBody_of_none ?_
      rw [Value.outline?, Value.entriesIfTruthy?_eq_none_iff.mpr hnone, Option.map_none]
  | fields hfields hdescribe => exact ofBody_of_fieldsDescribe hfields hdescribe

/-- A body describes something in every case. -/
theorem exists_bodyDescribes (source : String) (id name : WideText) (body : Value) :
    ∃ answer, BodyDescribes source id name body answer := by
  cases hfields : body.entriesIfTruthy? with
  | none => exact ⟨_, .noMapping (Value.entriesIfTruthy?_eq_none_iff.mp hfields)⟩
  | some fields =>
      obtain ⟨answer, hdescribe⟩ := exists_fieldsDescribe source id name fields
      exact ⟨answer, .fields hfields hdescribe⟩

end Machine

/-! ## What a document answers -/

namespace Manifest

section

variable [Stack]

/-- The answer of a document to the question about a state machine of a model. -/
inductive Answers (source : String) (document : Value) (id name : WideText) :
    Except Failure Machine → Prop
  | unknownModel (h : Lacks (modelEntries document) id) :
      Answers source document id name (.error (.complaint (.unknownModel source id)))
  | longKey {entry : Value} (hentry : IsLast (modelEntries document) id entry)
      (h : ∃ machine ∈ entry.machineEntries, machine.1.IsLong) :
      Answers source document id name (.error (.unwritable .longNumber))
  | unknownMachine {entry : Value} (hentry : IsLast (modelEntries document) id entry)
      (hshort : ¬ ∃ machine ∈ entry.machineEntries, machine.1.IsLong)
      (h : Lacks entry.machineEntries name) :
      Answers source document id name (.error (.complaint (.unknownMachine id name)))
  | body {entry body : Value} {answer : Except Failure Machine}
      (hentry : IsLast (modelEntries document) id entry)
      (hshort : ¬ ∃ machine ∈ entry.machineEntries, machine.1.IsLong)
      (hbody : IsLast entry.machineEntries name body)
      (h : BodyDescribes source id name body answer) :
      Answers source document id name answer

variable {source : String} {document : Value} {manifest : Manifest} {id name : WideText}
  {answer : Except Failure Machine}

/-- A document answers something in every case. -/
theorem exists_answers (source : String) (document : Value) (id name : WideText) :
    ∃ answer, Answers source document id name answer := by
  obtain hlacks | ⟨entry, hentry⟩ := lacks_or_isLast (modelEntries document) id
  · exact ⟨_, .unknownModel hlacks⟩
  · by_cases hlong : ∃ machine ∈ entry.machineEntries, machine.1.IsLong
    · exact ⟨_, .longKey hentry hlong⟩
    · obtain hlacks | ⟨body, hbody⟩ := lacks_or_isLast entry.machineEntries name
      · exact ⟨_, .unknownMachine hentry hlong hlacks⟩
      · obtain ⟨answer, hdescribe⟩ := Machine.exists_bodyDescribes source id name body
        exact ⟨answer, .body hentry hlong hbody hdescribe⟩

/-- The answer of an accepted document is that of its manifest. -/
theorem resolve_of_answers (hdocument : ofValue source document = .ok manifest)
    (h : Answers source document id name answer) : manifest.resolve id name = answer := by
  have hsource : manifest.source = source := by
    obtain ⟨models, -, rfl⟩ := ofValue_eq_ok hdocument
    rfl
  cases h with
  | unknownModel hlacks =>
      rw [resolve, model_of_lacks hdocument hlacks, hsource]
      rfl
  | longKey hentry hlong =>
      obtain ⟨model, hmodel, hmachines⟩ := model_of_isLast hdocument hentry
      have hlong : model.HasLongKey := by
        rwa [Model.HasLongKey, hmachines]
      rw [resolve, hmodel]
      simp only [bind, Except.bind, Model.machine?, Model.machines_eq_error hlong]
  | unknownMachine hentry hshort hlacks =>
      obtain ⟨model, hmodel, hmachines⟩ := model_of_isLast hdocument hentry
      rw [← hmachines] at hshort hlacks
      rw [resolve, hmodel]
      simp only [bind, Except.bind, Model.machine?_of_lacks hshort hlacks]
      rfl
  | body hentry hshort hbody hdescribe =>
      obtain ⟨model, hmodel, hmachines⟩ := model_of_isLast hdocument hentry
      rw [← hmachines] at hshort hbody
      rw [resolve, hmodel]
      simp only [bind, Except.bind, Model.machine?_of_isLast hshort hbody, hsource]
      exact Machine.ofBody_of_bodyDescribes hdescribe

/-- The manifest of an accepted document answers as the document does. -/
theorem resolve_eq_iff (hdocument : ofValue source document = .ok manifest) :
    manifest.resolve id name = answer ↔ Answers source document id name answer := by
  constructor
  · rintro rfl
    obtain ⟨answer, hanswers⟩ := exists_answers source document id name
    rwa [resolve_of_answers hdocument hanswers]
  · exact resolve_of_answers hdocument

/-- A document is a manifest exactly if it is not malformed and no key comes first that is too long;
if it is malformed the manifest is at fault; and a manifest answers as its document does. -/
structure ReadsExactly (source : String) (document : Value) : Prop where
  fault : (∃ failure, ofValue source document = .error failure ∧ failure.IsManifestFault) ↔
    Malformed document ∧ ¬ LongKeyFirst document
  longKey : ofValue source document = .error (.unwritable .longNumber) ↔ LongKeyFirst document
  failures : ∀ failure, ofValue source document = .error failure →
    failure.IsManifestFault ∨ failure = .unwritable .longNumber
  resolve : ∀ manifest, ofValue source document = .ok manifest → ∀ id name answer,
    manifest.resolve id name = answer ↔ Answers source document id name answer

/-- Every document is read exactly: it is accepted unless it is malformed or a key comes first that
is too long, and the manifest of an accepted document answers each question as the document does. -/
theorem readsExactly (source : String) (document : Value) : ReadsExactly source document := by
  have hlongKey : ¬ Failure.IsManifestFault (.unwritable .longNumber) := fun hfault => by
    obtain ⟨⟨reason, hreason⟩, -⟩ := hfault
    cases hreason
  have hresolve : ∀ manifest, ofValue source document = .ok manifest → ∀ id name answer,
      manifest.resolve id name = answer ↔ Answers source document id name answer :=
    fun _ h _ _ _ => resolve_eq_iff h
  obtain ⟨hformed, hsound, manifest, hread⟩ | ⟨hmalformed, failure, hread, hfault⟩ | hlong :=
    outcome_of_ofValue source document
  · have hnot : ¬ LongKeyFirst document := fun hlong => by
      rw [ofValue_of_longKeyFirst hlong] at hread
      cases hread
    refine ⟨?_, ?_, ?_, hresolve⟩
    · simp [hread, hformed]
    · simp [hread, hnot]
    · simp [hread]
  · have hnot : ¬ LongKeyFirst document := fun hlong => by
      rw [ofValue_of_longKeyFirst hlong source] at hread
      cases hread
      exact hlongKey hfault
    refine ⟨?_, ?_, ?_, hresolve⟩
    · simp [hread, hmalformed, hnot, hfault]
    · have hother : failure ≠ .unwritable .longNumber := fun heq => hlongKey (heq ▸ hfault)
      simp [hread, hnot, hother]
    · simp [hread, hfault]
  · have hread := ofValue_of_longKeyFirst hlong source
    refine ⟨?_, ?_, ?_, hresolve⟩
    · simp [hread, hlong, hlongKey]
    · simp [hread, hlong]
    · simp [hread]

/-- A document with one model, of which the key says nothing but the id. -/
def keyDocument (key : Scalar) : Value :=
  .map [(.str "models", .map [(key, .null)])]

omit [Stack] in
/-- Such a document is well formed, but it is not accepted if the key is too long. -/
theorem keyDocument_of_isLong {key : Scalar} (h : key.IsLong) :
    ¬ Malformed (keyDocument key) ∧
      ofValue "<memory>" (keyDocument key) = .error (.unwritable .longNumber) := by
  have hlists : Lists (keyDocument key) [(key, .null)] := ⟨_, rfl, rfl⟩
  refine ⟨?_, ofValue_of_longKeyFirst ⟨[], (key, .null), [], rfl, nofun, h⟩ _⟩
  rw [hlists.malformed_iff]
  rintro ⟨entry, hmem, hnone | ⟨fields, hfields, hnone⟩⟩
  · rw [List.mem_singleton.mp hmem] at hnone
    cases hnone.1
  · rw [List.mem_singleton.mp hmem] at hfields
    cases hfields
    cases hnone.1

end

open scoped Stack

/-- A document is well formed whose only model has the number with a one and 4300 zeros as its id,
and it is not accepted for another reason than a fault of the manifest. -/
theorem not_accepted_longKey :
    let document := keyDocument (.int (Int.ofNat (Nat.pow 10 4300)))
    ¬ Malformed document ∧ ∃ failure, ofValue "<memory>" document = .error failure ∧
      ¬ failure.IsManifestFault := by
  intro document
  obtain ⟨hformed, hread⟩ :=
    keyDocument_of_isLong (Scalar.isLong_ofNat (Nat.le_refl (Nat.pow 10 4300)))
  refine ⟨hformed, _, hread, ?_⟩
  rintro ⟨⟨reason, hreason⟩, -⟩
  cases hreason

end Manifest

end MachineRbi
