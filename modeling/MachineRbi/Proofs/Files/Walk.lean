import MachineRbi.Workspace

/-!
# Where paths lead

`Workspace.locate` walks from directory to directory. `Workspace.Reaches` says what a walk needs on
its way, and `Workspace.destination` says where it ends, from the names of the path alone.
`locate_eq_ok_iff` ties the two to the walk, and `holds_iff_entryAt` and `readText_eq_ok_iff` say
when a file can be read at the end of it.
-/

namespace MachineRbi

/-- Each location that one of the names is looked up in is a directory, and no name is longer than
the name of an entry can be. -/
def FileTree.Passes (tree : FileTree) (location : Location) : List String → Prop
  | [] => True
  | name :: rest =>
    tree.entry? location = some .directory ∧ isLongName name = false ∧
      tree.Passes (Location.step location name) rest

/-- A walk succeeds over directories only, and then its names say where it ends. -/
theorem FileTree.walk_eq_ok_iff {tree : FileTree} {location goal : Location}
    {names : List String} :
    tree.walk location names = .ok goal ↔
      tree.Passes location names ∧ goal = names.foldl Location.step location := by
  induction names generalizing location with
  | nil =>
      simp [FileTree.walk, Spot.walk, Spot.location, Spot.ofLocation, Passes, Except.map,
        eq_comm]
  | cons name rest ih =>
      rw [FileTree.walk_cons, Passes, List.foldl_cons]
      cases hentry : tree.entry? location with
      | none => simp
      | some entry =>
          cases entry with
          | file bytes => simp
          | directory => cases hlong : isLongName name <;> simp [ih]

/-- Directories that stay directories can be passed as before. -/
theorem FileTree.Passes.mono {before after : FileTree}
    (hkeep : ∀ location, before.entry? location = some .directory →
      after.entry? location = some .directory)
    {location : Location} {names : List String} (h : before.Passes location names) :
    after.Passes location names := by
  induction names generalizing location with
  | nil => trivial
  | cons name rest ih => exact ⟨hkeep _ h.1, h.2.1, ih h.2.2⟩

/-- Names that do not lead up are added to a location. -/
theorem Location.foldl_step {names : List String} (h : ".." ∉ names) (location : Location) :
    names.foldl Location.step location = location ++ names := by
  induction names generalizing location with
  | nil => simp
  | cons name rest ih =>
      simp only [List.mem_cons, not_or] at h
      rw [List.foldl_cons, ih h.2, Location.step, if_neg (Ne.symm h.1), List.append_assoc]
      rfl

namespace Workspace

/-- The location that the names of a path lead to. Nothing needs to stand on the way. -/
def destination (workspace : Workspace) (path : Path) : Location :=
  path.names.foldl Location.step (workspace.start path)

/-- The location at which the walk along a path begins, and the names that are left for it. The
directory above the working directory is reached without looking at the working directory. -/
def departure (workspace : Workspace) (path : Path) : Location × List String :=
  match path.anchor, path.names with
  | .here, ".." :: rest => (workspace.here.dropLast, rest)
  | _, names => (workspace.start path, names)

/-- A path can be walked to its end. -/
def Reaches (workspace : Workspace) (path : Path) : Prop :=
  hasNull path = false ∧ isLongPath path = false ∧
    workspace.tree.Passes (workspace.departure path).1 (workspace.departure path).2

/-- The walk along a path ends where its names say. -/
theorem foldl_departure (workspace : Workspace) (path : Path) :
    (workspace.departure path).2.foldl Location.step (workspace.departure path).1 =
      workspace.destination path := by
  unfold departure destination
  split
  next rest hanchor hnames => rw [hnames]; simp [start, hanchor, Location.step]
  next => rfl

/-- A path is located by a walk from its departure, if its text can be used. -/
theorem locate_eq_walk (workspace : Workspace) (path : Path) :
    workspace.locate path =
      if hasNull path then .error .nullInPath
      else if isLongPath path then .error .tooLong
      else workspace.tree.walk (workspace.departure path).1 (workspace.departure path).2 := by
  obtain ⟨anchor, names⟩ := path
  -- Only leading up from the working directory is walked in a way of its own.
  cases anchor with
  | here =>
      cases names with
      | nil => rfl
      | cons name rest =>
          by_cases hup : name = ".."
          · rw [hup]
            rfl
          · simp [locate, departure, hup]
  | root => rfl
  | doubleRoot => rfl

/-- A path is located exactly if it can be walked to its end. -/
theorem locate_eq_ok_iff {workspace : Workspace} {path : Path} {goal : Location} :
    workspace.locate path = .ok goal ↔
      workspace.Reaches path ∧ goal = workspace.destination path := by
  rw [locate_eq_walk, ← foldl_departure]
  unfold Reaches
  cases hasNull path <;> cases isLongPath path <;> simp [FileTree.walk_eq_ok_iff]

/-- What is looked up at the end of a path that can be walked. -/
theorem lookUp_eq_ok_iff {workspace : Workspace} {path : Path} {goal : Location}
    { entry? : Option Entry} :
    workspace.lookUp path = .ok (goal, entry?) ↔
      workspace.Reaches path ∧ goal = workspace.destination path ∧
        entry? = if path.names = [] then some .directory
          else workspace.tree.entry? (workspace.destination path) := by
  unfold lookUp
  cases hlocate : workspace.locate path with
  | error fault =>
      have hnone : ¬ workspace.Reaches path := fun h => by
        rw [locate_eq_ok_iff.mpr ⟨h, rfl⟩] at hlocate
        cases hlocate
      simp [bind, Except.bind, hnone]
  | ok location =>
      obtain ⟨hreach, rfl⟩ := locate_eq_ok_iff.mp hlocate
      by_cases hnames : path.names = [] <;>
        simp [bind, Except.bind, pure, Except.pure, hreach, hnames, @eq_comm _ goal,
          @eq_comm _ entry?]

/-- A path leads to a file with these bytes. -/
def Holds (workspace : Workspace) (path : Path) (bytes : ByteArray) : Prop :=
  workspace.Reaches path ∧ path.names ≠ [] ∧
    workspace.tree.entry? (workspace.destination path) = some (.file bytes)

/-- A file that a path leads to is what stands at its end. -/
theorem holds_iff_entryAt {workspace : Workspace} {path : Path} {bytes : ByteArray} :
    workspace.Holds path bytes ↔ workspace.entryAt path = .ok (.file bytes) := by
  have hlook : workspace.entryAt path = .ok (.file bytes) ↔
      ∃ goal, workspace.lookUp path = .ok (goal, some (.file bytes)) := by
    unfold entryAt
    cases workspace.lookUp path with
    | error fault => simp [bind, Except.bind]
    | ok found =>
        obtain ⟨goal, entry | entry⟩ := found <;>
          simp [bind, Except.bind, pure, Except.pure, throw, throwThe, MonadExceptOf.throw]
  rw [hlook]
  unfold Holds
  constructor
  · rintro ⟨hreach, hnames, hentry⟩
    exact ⟨_, lookUp_eq_ok_iff.mpr ⟨hreach, rfl, by rw [if_neg hnames, hentry]⟩⟩
  · rintro ⟨goal, h⟩
    obtain ⟨hreach, -, hentry⟩ := lookUp_eq_ok_iff.mp h
    by_cases hnames : path.names = []
    · rw [if_pos hnames] at hentry
      cases hentry
    · rw [if_neg hnames] at hentry
      exact ⟨hreach, hnames, hentry.symm⟩

/-- The text of a file is what its bytes encode, with a line feed at every line end. -/
theorem readText_eq_ok_iff {workspace : Workspace} {path : Path} {text : String} :
    workspace.readText path = .ok text ↔
      ∃ bytes stored, workspace.Holds path bytes ∧ decodeText bytes = some stored ∧
        text = String.ofList (Text.unifyLineEnds stored.toList) := by
  simp only [holds_iff_entryAt]
  unfold readText readBytes
  cases workspace.entryAt path with
  | error fault => simp [bind, Except.bind]
  | ok entry =>
      cases entry with
      | directory => simp [bind, Except.bind, throw, throwThe, MonadExceptOf.throw]
      | file bytes =>
          cases hdecode : decodeText bytes with
          | none => simp [bind, Except.bind, pure, Except.pure, throw, throwThe,
              MonadExceptOf.throw, hdecode]
          | some stored => simp [bind, Except.bind, pure, Except.pure, hdecode, eq_comm]

/-- A file that can be read exists. -/
theorem pathExists_of_readText {workspace : Workspace} {path : Path} {text : String}
    (h : workspace.readText path = .ok text) : workspace.pathExists path = .ok true := by
  obtain ⟨bytes, -, hholds, -⟩ := readText_eq_ok_iff.mp h
  simp [pathExists, find?, holds_iff_entryAt.mp hholds, Except.map]

end Workspace

end MachineRbi
