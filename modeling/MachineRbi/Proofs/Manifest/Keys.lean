import Mathlib.Data.List.Nodup
import MachineRbi.Proofs.Generation.Composition
import MachineRbi.Proofs.Manifest.Body

/-!
# Keys that serve as names

Keys of any type serve as names through their text, so different keys of one mapping can say the
same name. Then the later entry wins: of two models with one id only the later is listed, and two
state machines with one name are listed twice but resolve to the later both times.
`listsEach_iff` says that this is the only way in which a declared model or machine is lost or
repeated.
-/

namespace MachineRbi

/-- No two keys have the same text. -/
def NamesApart (entries : Entries) : Prop :=
  entries.Pairwise fun a b => a.1.name ≠ b.1.name

/-- Keys have texts apart exactly if no text is there twice. -/
theorem namesApart_iff {entries : Entries} (names : List WideText)
    (h : List.Forall₂ (fun entry name => entry.1.name = .ok name) entries names) :
    NamesApart entries ↔ names.Nodup := by
  have hmap : entries.map (fun entry => entry.1.name) = names.map Except.ok := by
    induction h with
    | nil => rfl
    | cons hname _ ih => rw [List.map_cons, List.map_cons, hname, ih]
  have hinjective : Function.Injective (Except.ok : WideText → Except Failure WideText) :=
    fun _ _ => Except.ok.inj
  rw [← List.nodup_map_iff hinjective, ← hmap]
  exact List.pairwise_map.symm

/-- The last binding of a name is found under it. -/
theorem lookup_reverse_of_last {front back : List (WideText × Value)} {name : WideText}
    {body : Value} (hback : ∀ other ∈ back, other.1 ≠ name) :
    (front ++ (name, body) :: back).reverse.lookup name = some body := by
  refine List.lookup_eq_some_iff.mpr ⟨back.reverse, front.reverse, by simp, ?_⟩
  intro other hmem
  simpa using Ne.symm (hback other (List.mem_reverse.mp hmem))

/-- Where no name is bound twice, the last binding of a name is the only one. -/
theorem lookup_reverse_of_nodup {bindings : List (WideText × Value)} {name : WideText}
    {body : Value} (hnodup : (bindings.map Prod.fst).Nodup) (hmem : (name, body) ∈ bindings) :
    bindings.reverse.lookup name = some body := by
  obtain ⟨front, back, rfl⟩ := List.append_of_mem hmem
  have hback : ∀ binding ∈ back, binding.1 ≠ name := by
    intro binding hbinding hsame
    rw [List.map_append, List.map_cons] at hnodup
    have hnotMem := (List.nodup_cons.mp (List.nodup_append.mp hnodup).2.1).1
    have hnames := List.mem_map_of_mem (f := Prod.fst) hbinding
    rw [hsame] at hnames
    exact hnotMem hnames
  exact lookup_reverse_of_last hback

namespace Model

variable {source : String} {models others : List Model} {model : Model}

/-- The id of a model is the text of its key. -/
theorem name_of_ofEntry {key : Scalar} {entry : Value} (h : ofEntry source key entry = .ok model) :
    key.name = .ok model.id := by
  cases hname : key.name with
  | error failure =>
      rw [ofEntry_of_error hname] at h
      cases h
  | ok id =>
      obtain ⟨machines?, hread⟩ | hread | hread := ofEntry_cases hname entry
      all_goals
        rw [hread] at h
        cases h
      rfl

/-- A model with an id of its own is put behind the others. -/
theorem insert_of_not_mem (h : model.id ∉ models.map (·.id)) :
    insert models model = models ++ [model] := by
  induction models with
  | nil => rfl
  | cons other rest ih =>
      rw [List.map_cons, List.mem_cons, not_or] at h
      rw [insert, if_neg (Ne.symm h.1), ih h.2, List.cons_append]

/-- Models with ids of their own are put one behind the other. -/
theorem foldl_insert_of_nodup (h : ((models ++ others).map (·.id)).Nodup) :
    others.foldl insert models = models ++ others := by
  induction others generalizing models with
  | nil => rw [List.foldl_nil, List.append_nil]
  | cons other rest ih =>
      have hnew : other.id ∉ models.map (·.id) := by
        rw [List.map_append, List.map_cons] at h
        exact fun hmem => (List.nodup_append.mp h).2.2 _ hmem _ List.mem_cons_self rfl
      rw [List.append_cons] at h
      rw [List.foldl_cons, insert_of_not_mem hnew, ih h, ← List.append_cons]

/-- The state machines that a model declares, each under its key. -/
def machineEntries (model : Model) : Entries :=
  model.machines?.getD []

/-- Listing the state machines of a model reads the names of their keys in turn. -/
theorem machines_eq (model : Model) :
    model.machines = model.machineEntries.mapM fun entry => entry.1.name.map (·, entry.2) :=
  rfl

/-- The state machines of a model are found under the texts of their keys. -/
theorem machines_eq_ok_iff {bindings : List (WideText × Value)} :
    model.machines = .ok bindings ↔
      List.Forall₂ (fun entry binding => entry.1.name = .ok binding.1 ∧ entry.2 = binding.2)
        model.machineEntries bindings := by
  rw [machines_eq, mapM_eq_ok_iff]
  refine iff_of_eq (congrArg (List.Forall₂ · _ _) ?_)
  funext entry binding
  obtain ⟨name, value⟩ := binding
  cases entry.1.name <;> simp [Except.map]

end Model

namespace Manifest

variable {source : String} {document : Value} {manifest : Manifest} {model : Model}

/-- A listed model is the one with its id. -/
theorem model_eq_ok (hnodup : manifest.modelIds.Nodup) (hmem : model ∈ manifest.models) :
    manifest.model model.id = .ok model := by
  unfold Manifest.model
  cases hfind : manifest.models.find? (·.id = model.id) with
  | none => simpa using List.find?_eq_none.mp hfind model hmem
  | some found =>
      have hid : found.id = model.id := by simpa using List.find?_some hfind
      rw [List.inj_on_of_nodup_map hnodup (List.mem_of_find?_eq_some hfind) hmem hid]

/-! ## The state machines of a listed model -/

section Listed

variable {bindings : List (WideText × Value)}

/-- The listed names are those of all state machines, even of those that share one. -/
theorem machineNames_eq_ok (hmodel : manifest.model model.id = .ok model)
    (hbindings : model.machines = .ok bindings) :
    manifest.machineNames model.id = .ok (bindings.map (·.1)) := by
  simp [machineNames, hmodel, hbindings, bind, Except.bind, pure, Except.pure]

variable [Stack]

/-- A name that one state machine has resolves to that. -/
theorem resolve_eq_ofBody (hmodel : manifest.model model.id = .ok model)
    (hbindings : model.machines = .ok bindings) (hnodup : (bindings.map Prod.fst).Nodup)
    {name : WideText} {body : Value} (hmem : (name, body) ∈ bindings) :
    manifest.resolve model.id name = Machine.ofBody manifest.source model.id name body := by
  simp [resolve, Model.machine?, hmodel, hbindings, lookup_reverse_of_nodup hnodup hmem, bind,
    Except.bind, pure, Except.pure]

/-- Names that one state machine each has resolve to the machines that their bodies describe. -/
theorem resolved_of_nodup {machines : List Machine}
    (hmodel : manifest.model model.id = .ok model) (hbindings : model.machines = .ok bindings)
    (hnodup : (bindings.map Prod.fst).Nodup)
    (hresolve : (bindings.map (·.1)).mapM (manifest.resolve model.id) = .ok machines) :
    List.Forall₂ (fun binding machine => binding.1 = machine.name ∧
        Machine.ofBody manifest.source model.id binding.1 binding.2 = .ok machine ∧
        manifest.resolve model.id binding.1 = .ok machine) bindings machines := by
  have hbodies : ∀ binding ∈ bindings, manifest.resolve model.id binding.1 =
      Machine.ofBody manifest.source model.id binding.1 binding.2 :=
    fun _ hmem => resolve_eq_ofBody hmodel hbindings hnodup hmem
  have hresolved := List.forall₂_map_left_iff.mp (mapM_eq_ok_iff.mp hresolve)
  refine ((List.forall₂_and_left _ _).mpr ⟨hbodies, hresolved⟩).imp ?_
  rintro binding machine ⟨hbody, hmachine⟩
  rw [← hbody]
  exact ⟨(Machine.name_of_ofBody (hbody ▸ hmachine)).symm, hmachine, hmachine⟩

/-- The declarations of a model come from what its names resolve to. -/
theorem inspect_eq_synthesize {types : TypeVocabulary} {machines : List Machine}
    (hmodel : manifest.model model.id = .ok model) (hbindings : model.machines = .ok bindings)
    (hresolve : (bindings.map (·.1)).mapM (manifest.resolve model.id) = .ok machines) :
    manifest.inspect types model.id = .ok (types.synthesize model.id machines) := by
  have hcapable : manifest.isCapable model.id = .ok model.machines?.isSome := by
    rw [isCapable, hmodel]
    rfl
  unfold inspect
  cases hmachines : model.machines? with
  | none =>
      -- Without a list of state machines there are no names to resolve.
      rw [Model.machines, hmachines] at hbindings
      cases hbindings
      cases hresolve
      simp [hcapable, hmachines, bind, Except.bind, pure, Except.pure]
      rfl
  | some entries =>
      simp [hcapable, hmachines, machineNames_eq_ok hmodel hbindings, hresolve, bind, Except.bind,
        pure, Except.pure]

end Listed

section

variable [Stack]

/-- All state machines of a model resolve under their names. -/
def AllResolve (manifest : Manifest) (id : WideText) : Prop :=
  ∃ names, manifest.machineNames id = .ok names ∧
    ∀ name ∈ names, ∃ machine, manifest.resolve id name = .ok machine

/-- The state machines of a model are those that its entries describe, each listed once under the
text of its key and resolved under that name. The declarations of the model, and the text that a
job composes, come from each of them once. -/
structure Counts (manifest : Manifest) (model : Model) (machines : List Machine) : Prop where
  names : manifest.machineNames model.id = .ok (machines.map (·.name))
  nodup : (machines.map (·.name)).Nodup
  resolved : List.Forall₂
    (fun entry machine => entry.1.name = .ok machine.name ∧
      Machine.ofBody manifest.source model.id machine.name entry.2 = .ok machine ∧
      manifest.resolve model.id machine.name = .ok machine)
    model.machineEntries machines
  inspected : ∀ types : TypeVocabulary,
    manifest.inspect types model.id = .ok (types.synthesize model.id machines)
  composed : ∀ (job : Job) set text, job.compose manifest model.id = .ok (set, text) ↔
    set = job.types.synthesize model.id machines ∧ job.emitter.emit set = .ok text

/-- If all state machines of a model resolve, then each of them counts exactly if their keys have
texts apart. -/
theorem counts_iff (hmodel : manifest.model model.id = .ok model)
    (hresolve : manifest.AllResolve model.id) :
    (∃ machines, manifest.Counts model machines) ↔ NamesApart model.machineEntries := by
  constructor
  · rintro ⟨machines, hcounts⟩
    refine (namesApart_iff (machines.map (·.name)) ?_).mpr hcounts.nodup
    exact List.forall₂_map_right_iff.mpr (hcounts.resolved.imp fun _ _ h => h.1)
  · intro hapart
    obtain ⟨names, hnames, hresolve⟩ := hresolve
    obtain ⟨bindings, hbindings⟩ : ∃ bindings, model.machines = .ok bindings := by
      cases hmachines : model.machines with
      | ok bindings => exact ⟨bindings, rfl⟩
      | error failure =>
          simp [machineNames, hmodel, hmachines, bind, Except.bind] at hnames
    rw [machineNames_eq_ok hmodel hbindings] at hnames
    cases hnames
    have hkeys := Model.machines_eq_ok_iff.mp hbindings
    have hnodup : (bindings.map (·.1)).Nodup :=
      (namesApart_iff _ (List.forall₂_map_right_iff.mpr (hkeys.imp fun _ _ h => h.1))).mp hapart
    obtain ⟨machines, hmachines⟩ := exists_mapM_eq_ok_iff.mpr hresolve
    have hfound := resolved_of_nodup hmodel hbindings hnodup hmachines
    have hnames : bindings.map (·.1) = machines.map (·.name) := by
      rw [← List.forall₂_eq_eq_eq, List.forall₂_map_left_iff, List.forall₂_map_right_iff]
      exact hfound.imp fun _ _ h => h.1
    have hinspect : ∀ types : TypeVocabulary,
        manifest.inspect types model.id = .ok (types.synthesize model.id machines) :=
      fun _ => inspect_eq_synthesize hmodel hbindings hmachines
    refine ⟨machines, ?_, hnames ▸ hnodup, forall₂_trans hkeys hfound ?_, hinspect, ?_⟩
    · rw [← hnames]
      exact machineNames_eq_ok hmodel hbindings
    · rintro entry ⟨name, body⟩ machine ⟨hkey, hbody⟩ ⟨hname, hmachine, hresolved⟩
      rw [hname] at hkey
      rw [← hbody, hname] at hmachine
      rw [hname] at hresolved
      exact ⟨hkey, hmachine, hresolved⟩
    · intro job set text
      rw [Job.compose_eq_ok_iff, hinspect, Except.ok.injEq, eq_comm]

/-! ## Documents -/

/-- Every entry of a document under `models` is listed once, in order, under the text of its key,
and every state machine of a model whose state machines all resolve counts once. -/
structure ListsEach (manifest : Manifest) (document : Value) : Prop where
  models : List.Forall₂
    (fun entry model => entry.1.name = .ok model.id ∧
      Model.ofEntry manifest.source entry.1 entry.2 = .ok model ∧
      manifest.model model.id = .ok model)
    (modelEntries document) manifest.models
  machines : ∀ model ∈ manifest.models, manifest.AllResolve model.id →
    ∃ machines, manifest.Counts model machines

/-- A document lists each of its models and state machines exactly if no two keys of models have the
same text, and no two keys of the state machines of a model that all resolve. -/
theorem listsEach_iff (h : ofValue source document = .ok manifest) :
    manifest.ListsEach document ↔
      NamesApart (modelEntries document) ∧
        ∀ model ∈ manifest.models, manifest.AllResolve model.id →
          NamesApart model.machineEntries := by
  have hnodup := nodup_modelIds h
  have hmachines : (∀ model ∈ manifest.models, manifest.AllResolve model.id →
        ∃ machines, manifest.Counts model machines) ↔
      ∀ model ∈ manifest.models, manifest.AllResolve model.id →
        NamesApart model.machineEntries :=
    forall₃_congr fun _ hmem hresolve => counts_iff (model_eq_ok hnodup hmem) hresolve
  rw [← hmachines]
  constructor
  · rintro ⟨hmodels, hall⟩
    refine ⟨(namesApart_iff manifest.modelIds ?_).mpr hnodup, hall⟩
    exact List.forall₂_map_right_iff.mpr (hmodels.imp fun _ _ h => h.1)
  · rintro ⟨hapart, hall⟩
    obtain ⟨models, hentries, rfl⟩ := ofValue_eq_ok h
    have hids : (models.map (·.id)).Nodup :=
      (namesApart_iff _ (List.forall₂_map_right_iff.mpr
        (hentries.imp fun _ _ hentry => Model.name_of_ofEntry hentry))).mp hapart
    -- With ids of their own the models stand as the entries do.
    have hmodels : models.foldl Model.insert [] = models := Model.foldl_insert_of_nodup hids
    refine ⟨?_, hall⟩
    rw [hmodels] at hnodup ⊢
    have hfound : ∀ model ∈ models, Manifest.model ⟨source, models⟩ model.id = .ok model :=
      fun _ hmem => model_eq_ok hnodup hmem
    have hboth := (List.forall₂_and_left _ _).mpr ⟨hfound, hentries.flip⟩
    exact hboth.flip.imp fun _ _ h => ⟨Model.name_of_ofEntry h.2, h.2, h.1⟩

end

open scoped Stack

/-- A document with keys that are no texts lists each model and state machine if the texts of the
keys differ. -/
theorem listsEach_iff_switches :
    let document : Value := .ofBindings [(.str "models", .ofBindings
      [(.str "Job", .ofBindings [(.str "state_machines", .ofBindings
          [(.bool true, .ofBindings [(.str "states", .list [.str "open"])]),
            (.str "two", .null)])]),
        (.null, .null)])]
    ∃ manifest, ofValue "machines.yml" document = .ok manifest ∧ manifest.ListsEach document := by
  intro document
  let fields : Entries := [(.str "states", .list [.str "open"])]
  let entries : Entries := [(.bool true, .map fields), (.str "two", .null)]
  let manifest : Manifest := ⟨"machines.yml", [⟨"Job", some entries⟩, ⟨"None", none⟩]⟩
  have haccepted : ofValue "machines.yml" document = .ok manifest := rfl
  refine ⟨manifest, haccepted, (listsEach_iff haccepted).mpr ⟨?_, ?_⟩⟩
  · exact (namesApart_iff ["Job", "None"] (.cons rfl (.cons rfl .nil))).mpr
      (by decide)
  · intro model hmem _
    rcases List.mem_pair.mp hmem with rfl | rfl
    · exact (namesApart_iff ["True", "two"] (.cons rfl (.cons rfl .nil))).mpr
        (by decide)
    · exact List.Pairwise.nil

/-- The value `true` and the text `True` are different keys with the same text: a document can bind
both, and then one of two models is lost, and one of two state machines stands for both. -/
theorem not_listsEach_twins :
    let openState : Value := .ofBindings [(.str "states", .list [.str "open"])]
    let shutState : Value := .ofBindings [(.str "states", .list [.str "shut"])]
    let document : Value := .ofBindings [(.str "models", .ofBindings
      [(.str "Job", .ofBindings [(.str "state_machines", .ofBindings
          [(.bool true, openState), (.str "True", shutState)])]),
        (.bool true, .null), (.str "True", .null)])]
    ∃ manifest, ofValue "machines.yml" document = .ok manifest ∧
      manifest.modelIds = ["Job", "True"] ∧
      manifest.machineNames "Job" = .ok ["True", "True"] ∧
      manifest.resolve "Job" "True" = .ok ⟨"True", none, [], ["shut"]⟩ ∧
      ¬ manifest.ListsEach document := by
  intro openState shutState document
  let entries : Entries := [(.bool true, openState), (.str "True", shutState)]
  refine ⟨⟨"machines.yml", [⟨"Job", some entries⟩, ⟨"True", none⟩]⟩, rfl, rfl, rfl, rfl, ?_⟩
  intro hlists
  -- Three entries give two models.
  have hlength : 3 = 2 := hlists.models.length_eq
  contradiction

end Manifest

end MachineRbi
