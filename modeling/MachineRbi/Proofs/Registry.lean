import MachineRbi.Proofs.Traversal
import MachineRbi.Registry

/-!
# Questions to a registry

A registry is asked for its models and for the state machines of a model, while the files that it
works in may change in any way between two questions. A scene is a registry among its files, and its
history is the list of what happened to it. Reading a manifest sees nothing of the files but what
stands at its path (`readManifest_eq_load`).
-/

namespace MachineRbi

/-- What a registry can be asked. -/
inductive Query where
  | modelIds
  | isCapable (id : WideText)
  | machineNames (id : WideText)
  | machine (id name : WideText)
  deriving DecidableEq, Repr

/-- What a registry answers. -/
inductive Answer where
  | modelIds (ids : List WideText)
  | isCapable (capable : Bool)
  | machineNames (names : List WideText)
  | machine (machine : Machine)
  deriving DecidableEq, Repr

variable [Stack]

/-- The answer that a manifest gives to a query. -/
def Query.ask (query : Query) (manifest : Manifest) : Except Failure Answer :=
  match query with
  | .modelIds => .ok (.modelIds manifest.modelIds)
  | .isCapable id => (manifest.isCapable id).map .isCapable
  | .machineNames id => (manifest.machineNames id).map .machineNames
  | .machine id name => (manifest.resolve id name).map .machine

namespace Registry

variable {registry : Registry} {workspace : Workspace} {manifest : Manifest} {failure : Failure}
  {path : String}

/-! ## Reading -/

/-- How a registry says that the file at a path is no YAML document. -/
def failureOf (path : String) : Yaml.Fault → Failure
  | .undecodable => .file .undecodable
  | .malformed => .complaint (.unparsable path)
  | fault => .scalar fault

/-- The document in what has been found at a path. -/
def documentIn (path : String) (found : Except FileFault (Option Entry)) : Except Failure Value :=
  match found with
  | .error fault => .error (.file fault)
  | .ok (some (.file bytes)) => (Yaml.parse bytes).mapError (failureOf path)
  | .ok _ => .error (.complaint (.missing path))

/-- There is no document in what has been found at a path if looking for it fails, if it is no file,
or if the bytes of the file are no YAML document. -/
theorem failure_of_documentIn {found : Except FileFault (Option Entry)}
    (h : documentIn path found = .error failure) :
    (∃ fault, found = .error fault ∧ failure = .file fault) ∨
      failure = .complaint (.missing path) ∨
      ∃ bytes fault, found = .ok (some (.file bytes)) ∧ Yaml.parse bytes = .error fault ∧
        failure = failureOf path fault := by
  unfold documentIn at h
  split at h
  next fault =>
    cases h
    exact .inl ⟨fault, rfl, rfl⟩
  next bytes =>
    cases hparse : Yaml.parse bytes with
    | ok document =>
        rw [hparse] at h
        cases h
    | error fault =>
        rw [hparse] at h
        cases h
        exact .inr (.inr ⟨bytes, fault, rfl, hparse, rfl⟩)
  next =>
    cases h
    exact .inr (.inl rfl)

/-- The manifest in what has been found at a path. -/
def load (path : String) (found : Except FileFault (Option Entry)) : Except Failure Manifest := do
  Manifest.ofValue path (← documentIn path found)

/-- Reading a document sees what stands at the path, and nothing else of the files. -/
theorem readDocument_eq_documentIn (workspace : Workspace) (path : String) :
    readDocument workspace path = documentIn path (workspace.find? (Path.ofText path)) := by
  unfold readDocument Workspace.isFile Workspace.readBytes Workspace.find?
  cases hentry : workspace.entryAt (Path.ofText path) with
  | error fault => cases fault <;> rfl
  | ok entry =>
      cases entry with
      | directory => rfl
      | file bytes =>
          simp only [documentIn, bind, Except.bind, Except.mapError, Except.map]
          cases hparse : Yaml.parse bytes with
          | ok document => simp [hparse, pure, Except.pure]
          | error fault =>
              cases fault <;>
                simp [hparse, failureOf, throw, throwThe, MonadExceptOf.throw, pure, Except.pure]

/-- Reading a manifest sees what stands at the path, and nothing else of the files. -/
theorem readManifest_eq_load (workspace : Workspace) (path : String) :
    readManifest workspace path = load path (workspace.find? (Path.ofText path)) := by
  rw [readManifest, readDocument_eq_documentIn, load]

/-! ## The registry after a query -/

/-- A registry that cannot read its manifest stays as it is. -/
theorem afterQuery_of_error (h : registry.manifest workspace = .error failure) :
    registry.afterQuery workspace = registry := by
  rw [afterQuery, h]

/-- A registry keeps the manifest that it has read. -/
theorem afterQuery_of_ok (h : registry.manifest workspace = .ok manifest) :
    registry.afterQuery workspace = ⟨registry.source, some manifest⟩ := by
  rw [afterQuery, h]

/-- A registry that has its manifest answers from it, whatever the files are. -/
theorem answer_of_loaded (h : registry.loaded? = some manifest) (workspace : Workspace)
    (query : Query) : registry.answer workspace query.ask = query.ask manifest := by
  rw [answer, Registry.manifest, h]
  rfl

/-- A registry that has its manifest stays as it is. -/
theorem afterQuery_of_loaded (h : registry.loaded? = some manifest) (workspace : Workspace) :
    registry.afterQuery workspace = registry := by
  have hmanifest : registry.manifest workspace = .ok manifest := by rw [Registry.manifest, h]
  rw [afterQuery_of_ok hmanifest, ← h]

end Registry

/-! ## Scenes -/

/-- A registry and the files that it works in. -/
structure Scene where
  registry : Registry
  workspace : Workspace

/-- What happens to a scene: the files become others in any way, or the registry is asked. -/
inductive Event where
  | change (workspace : Workspace)
  | ask (query : Query)

/-- The query of an event, if it is one. -/
def Event.query? : Event → Option Query
  | .change _ => none
  | .ask query => some query

namespace Scene

/-- The scene after an event. -/
def step (scene : Scene) : Event → Scene
  | .change workspace => { scene with workspace := workspace }
  | .ask _ => { scene with registry := scene.registry.afterQuery scene.workspace }

/-- The scene after events. -/
def after (scene : Scene) (events : List Event) : Scene :=
  events.foldl step scene

/-- The reply to a query. -/
def reply (scene : Scene) (query : Query) : Except Failure Answer :=
  scene.registry.answer scene.workspace query.ask

/-- The replies to the queries among events. -/
def replies (scene : Scene) : List Event → List (Except Failure Answer)
  | [] => []
  | .change workspace :: rest => (scene.step (.change workspace)).replies rest
  | .ask query :: rest => scene.reply query :: (scene.step (.ask query)).replies rest

@[simp] theorem after_nil (scene : Scene) : scene.after [] = scene :=
  rfl

@[simp] theorem after_cons (scene : Scene) (event : Event) (rest : List Event) :
    scene.after (event :: rest) = (scene.step event).after rest :=
  rfl

/-- A registry keeps its source, whatever happens. -/
theorem source_after (scene : Scene) (events : List Event) :
    (scene.after events).registry.source = scene.registry.source := by
  induction events generalizing scene with
  | nil => rfl
  | cons event rest ih =>
      rw [after_cons, ih]
      cases event with
      | change workspace => rfl
      | ask query =>
          unfold step Registry.afterQuery
          dsimp only
          split <;> rfl

variable {scene : Scene} {manifest : Manifest}

/-- A manifest that has been read stays. -/
theorem loaded_step (h : scene.registry.loaded? = some manifest) (event : Event) :
    (scene.step event).registry = scene.registry := by
  cases event with
  | change workspace => rfl
  | ask query => exact Registry.afterQuery_of_loaded h scene.workspace

/-- With a manifest that has been read the replies are those of the manifest, whatever happens. -/
theorem replies_of_loaded (h : scene.registry.loaded? = some manifest) (events : List Event) :
    scene.replies events = (events.filterMap Event.query?).map (·.ask manifest) := by
  induction events generalizing scene with
  | nil => rfl
  | cons event rest ih =>
      have hloaded : (scene.step event).registry.loaded? = some manifest := by
        rw [loaded_step h event, h]
      have hrest := ih hloaded
      cases event with
      | change workspace => exact hrest
      | ask query =>
          rw [replies, hrest, reply, Registry.answer_of_loaded h]
          rfl

end Scene

end MachineRbi
