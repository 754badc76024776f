import MachineRbi.Proofs.Files.Walk

/-!
# What changes in a file tree

`Workspace.Frame` bounds the difference between the workspaces before and after some work: where
directories may be new, and where files may be. Nothing is ever lost. `makeDirectory` and
`writeText` are described by what stands at the one location that they change. What the two keep
when they work on a file is `Workspace.Kept`, and so is a frame that has the file and the way to it
(`kept_frame`), so whatever is built from them stays in the frame whether or not it succeeds.
-/

namespace MachineRbi

namespace Workspace

/-- The only differences between two workspaces are new directories at some locations where nothing
stood, and files at some others where no directory stood. -/
structure Frame (directories files : Location → Prop) (before after : Workspace) : Prop where
  here_eq : after.here = before.here
  entry : ∀ location, after.tree.entry? location = before.tree.entry? location ∨
    (before.tree.entry? location = none ∧ after.tree.entry? location = some .directory ∧
      directories location) ∨
    (before.tree.entry? location ≠ some .directory ∧
      (∃ bytes, after.tree.entry? location = some (.file bytes)) ∧ files location)

namespace Frame

variable {directories files : Location → Prop} {before middle after : Workspace}

/-- Nothing differs from itself. -/
theorem refl (workspace : Workspace) : Frame directories files workspace workspace :=
  ⟨rfl, fun _ => .inl rfl⟩

/-- Work in two parts stays in a frame that both parts stay in. -/
theorem trans (hfirst : Frame directories files before middle)
    (hsecond : Frame directories files middle after) : Frame directories files before after := by
  refine ⟨hsecond.here_eq.trans hfirst.here_eq, fun location => ?_⟩
  -- What the first part has made is not made anew, and what is a directory stays one.
  rcases hsecond.entry location with hsame | ⟨hnone, hnew, hdir⟩ | ⟨hother, hfile, hat⟩
  · rw [hsame]
    exact hfirst.entry location
  · rcases hfirst.entry location with hold | ⟨_, hnew', _⟩ | ⟨_, ⟨bytes, hfile⟩, _⟩
    · exact .inr (.inl ⟨hold ▸ hnone, hnew, hdir⟩)
    · rw [hnone] at hnew'
      cases hnew'
    · rw [hnone] at hfile
      cases hfile
  · rcases hfirst.entry location with hold | ⟨_, hnew', _⟩ | ⟨hbefore, _, _⟩
    · exact .inr (.inr ⟨hold ▸ hother, hfile, hat⟩)
    · exact (hother hnew').elim
    · exact .inr (.inr ⟨hbefore, hfile, hat⟩)

/-- A frame can be widened. -/
theorem mono {directories' files' : Location → Prop} (h : Frame directories files before after)
    (hdirectories : ∀ location, directories location → directories' location)
    (hfiles : ∀ location, files location → files' location) :
    Frame directories' files' before after := by
  refine ⟨h.here_eq, fun location => ?_⟩
  rcases h.entry location with hsame | ⟨hnone, hnew, hdir⟩ | ⟨hother, hfile, hat⟩
  · exact .inl hsame
  · exact .inr (.inl ⟨hnone, hnew, hdirectories _ hdir⟩)
  · exact .inr (.inr ⟨hother, hfile, hfiles _ hat⟩)

/-- Work in two parts stays in the frames of both. -/
theorem union {directories' files' : Location → Prop}
    (hfirst : Frame directories files before middle)
    (hsecond : Frame directories' files' middle after) :
    Frame (fun location => directories location ∨ directories' location)
      (fun location => files location ∨ files' location) before after :=
  (hfirst.mono (fun _ => Or.inl) fun _ => Or.inl).trans
    (hsecond.mono (fun _ => Or.inr) fun _ => Or.inr)

/-- Directories stay. -/
theorem directory (h : Frame directories files before after) {location : Location}
    (hdir : before.tree.entry? location = some .directory) :
    after.tree.entry? location = some .directory := by
  rcases h.entry location with hsame | ⟨hnone, _, _⟩ | ⟨hother, _, _⟩
  · exact hsame.trans hdir
  · rw [hdir] at hnone
    cases hnone
  · exact (hother hdir).elim

/-- Away from the locations where files may change, files are the same before and after. -/
theorem file_iff (h : Frame directories files before after) {location : Location}
    (haway : ¬ files location) {bytes : ByteArray} :
    after.tree.entry? location = some (.file bytes) ↔
      before.tree.entry? location = some (.file bytes) := by
  rcases h.entry location with hsame | ⟨hnone, hnew, _⟩ | ⟨_, _, hat⟩
  · rw [hsame]
  · simp [hnone, hnew]
  · exact (haway hat).elim

/-- Paths keep their destinations. -/
theorem destination_eq (h : Frame directories files before after) (path : Path) :
    after.destination path = before.destination path := by
  simp only [destination, start, h.here_eq]

/-- Paths that can be walked stay so. -/
theorem reaches (h : Frame directories files before after) {path : Path}
    (hreach : before.Reaches path) : after.Reaches path := by
  have hdeparture : after.departure path = before.departure path := by
    simp only [departure, start, h.here_eq]
  obtain ⟨hnull, hlong, hpass⟩ := hreach
  refine ⟨hnull, hlong, ?_⟩
  rw [hdeparture]
  exact hpass.mono fun _ hdir => h.directory hdir

/-- A path that leads to a file away from the changes leads to the same file afterwards. -/
theorem holds (h : Frame directories files before after) {path : Path} {bytes : ByteArray}
    (haway : ¬ files (before.destination path)) (hholds : before.Holds path bytes) :
    after.Holds path bytes := by
  obtain ⟨hreach, hnames, hentry⟩ := hholds
  refine ⟨h.reaches hreach, hnames, ?_⟩
  rw [h.destination_eq]
  exact (h.file_iff haway).mpr hentry

/-- The text of a file away from the changes reads the same afterwards. -/
theorem readText (h : Frame directories files before after) {path : Path} {text : String}
    (haway : ¬ files (before.destination path)) (hread : before.readText path = .ok text) :
    after.readText path = .ok text := by
  obtain ⟨bytes, stored, hholds, htext⟩ := readText_eq_ok_iff.mp hread
  exact readText_eq_ok_iff.mpr ⟨bytes, stored, h.holds haway hholds, htext⟩

end Frame

variable {workspace : Workspace} {path : Path}

/-- Only a directory stands at the root. -/
theorem ne_root_of_entry {location : Location}
    (h : workspace.tree.entry? location ≠ some .directory) : location ≠ [] := by
  rintro rfl
  exact h (by simp [FileTree.entry?])

/-- What stands where after an entry has been set. -/
theorem entry?_set {location : Location} (hroot : location ≠ []) (entry : Entry)
    (other : Location) :
    FileTree.entry? (workspace.set location entry).tree other =
      if other = location then some entry else workspace.tree.entry? other :=
  FileTree.entry?_set _ _ _ _ hroot

/-- A new directory stands where nothing stood. -/
theorem makeDirectory_eq_ok {made : Workspace} (h : workspace.makeDirectory path = .ok made) :
    workspace.Reaches path ∧ path.names ≠ [] ∧
      workspace.tree.entry? (workspace.destination path) = none ∧
      made = workspace.set (workspace.destination path) .directory := by
  unfold makeDirectory at h
  cases hlook : workspace.lookUp path with
  | error fault => simp [hlook, bind, Except.bind] at h
  | ok found =>
      obtain ⟨goal, entry?⟩ := found
      obtain ⟨hreach, rfl, hentry⟩ := lookUp_eq_ok_iff.mp hlook
      cases entry? with
      | some entry => simp [hlook, bind, Except.bind, throw, throwThe, MonadExceptOf.throw] at h
      | none =>
          have hmade : made = workspace.set (workspace.destination path) .directory := by
            simpa [hlook, bind, Except.bind, pure, Except.pure, eq_comm] using h
          by_cases hnames : path.names = []
          · simp [hnames] at hentry
          · rw [if_neg hnames] at hentry
            exact ⟨hreach, hnames, hentry.symm, hmade⟩

/-- A text is written where no directory stands. -/
theorem writeText_eq_ok {written : Workspace} {text : String}
    (h : workspace.writeText path text = .ok written) :
    workspace.Reaches path ∧ path.names ≠ [] ∧
      workspace.tree.entry? (workspace.destination path) ≠ some .directory ∧
      written = workspace.set (workspace.destination path) (.file text.toUTF8) := by
  unfold writeText at h
  cases hlook : workspace.lookUp path with
  | error fault => simp [hlook, bind, Except.bind] at h
  | ok found =>
      obtain ⟨goal, entry?⟩ := found
      obtain ⟨hreach, rfl, hentry⟩ := lookUp_eq_ok_iff.mp hlook
      by_cases hdir : entry? = some .directory
      · simp [hlook, hdir, bind, Except.bind, throw, throwThe, MonadExceptOf.throw] at h
      · have hwritten :
            written = workspace.set (workspace.destination path) (.file text.toUTF8) := by
          simpa [hlook, hdir, bind, Except.bind, pure, Except.pure, eq_comm] using h
        by_cases hnames : path.names = []
        · exact (hdir (by simpa [hnames] using hentry)).elim
        · rw [if_neg hnames] at hentry
          exact ⟨hreach, hnames, hentry ▸ hdir, hwritten⟩

/-- Making a directory changes its location only. -/
theorem makeDirectory_frame {made : Workspace} (h : workspace.makeDirectory path = .ok made) :
    Frame (· = workspace.destination path) (fun _ => False) workspace made := by
  obtain ⟨-, -, hnone, rfl⟩ := makeDirectory_eq_ok h
  have hother : workspace.tree.entry? (workspace.destination path) ≠ some .directory := by
    simp [hnone]
  refine ⟨rfl, fun location => ?_⟩
  rw [entry?_set (ne_root_of_entry hother)]
  by_cases hat : location = workspace.destination path
  · exact .inr (.inl ⟨hat ▸ hnone, if_pos hat, hat⟩)
  · exact .inl (if_neg hat)

/-- Writing a text changes the location of its file only. -/
theorem writeText_frame {written : Workspace} {text : String}
    (h : workspace.writeText path text = .ok written) :
    Frame (fun _ => False) (· = workspace.destination path) workspace written := by
  obtain ⟨-, -, hother, rfl⟩ := writeText_eq_ok h
  refine ⟨rfl, fun location => ?_⟩
  rw [entry?_set (ne_root_of_entry hother)]
  by_cases hat : location = workspace.destination path
  · exact .inr (.inr ⟨hat ▸ hother, ⟨_, if_pos hat⟩, hat⟩)
  · exact .inl (if_neg hat)

/-- A written file holds the bytes of its text. -/
theorem writeText_holds {written : Workspace} {text : String}
    (h : workspace.writeText path text = .ok written) : written.Holds path text.toUTF8 := by
  have hframe := writeText_frame h
  obtain ⟨hreach, hnames, hother, hwritten⟩ := writeText_eq_ok h
  refine ⟨hframe.reaches hreach, hnames, ?_⟩
  rw [hframe.destination_eq, hwritten, entry?_set (ne_root_of_entry hother), if_pos rfl]

/-- The location lies at the end of some of the names that a path starts with. -/
def OnTheWay (workspace : Workspace) (path : Path) (location : Location) : Prop :=
  ∃ front, front ≠ [] ∧ front <+: path.names ∧
    location = workspace.destination ⟨path.anchor, front⟩

/-- What the making of each directory on a way keeps, the making of the way keeps, whether or not
all of them can be made. -/
theorem makeWay_keeps {p : Workspace → Prop} (anchor : Anchor) (existOk : Bool) (missing : Nat)
    (reversed : List String)
    (hstep : ∀ front, front <+: reversed.reverse → ∀ {workspace made : Workspace},
      p workspace → workspace.makeDirectory ⟨anchor, front⟩ = .ok made → p made)
    (h : p workspace) : p (makeWay anchor existOk workspace missing reversed).1 := by
  induction reversed generalizing existOk missing with
  | nil =>
      unfold makeWay
      dsimp only
      split
      next made hmade => exact hstep [] List.prefix_rfl h hmade
      next => exact h
      next => exact h
  | cons name rest ih =>
      unfold makeWay
      dsimp only
      split
      next made hmade => exact hstep _ List.prefix_rfl h hmade
      next =>
        split
        · exact h
        · -- The directories above come first, then the directory itself in what they left.
          have habove := ih true (missing - 1) fun front hfront =>
            hstep front (hfront.trans (by simp))
          split
          next fault hrest => rwa [hrest] at habove
          next middle hrest =>
            rw [hrest] at habove
            split
            next made hmade => exact hstep _ List.prefix_rfl habove hmade
            next => exact habove
            next => exact habove
      next => exact h

/-! ## Work on one file -/

/-- A property of workspaces that is kept when a directory is made on the way to a file, and when a
text is written to the file. -/
structure Kept (path : Path) (p : Workspace → Prop) : Prop where
  makeDirectory : ∀ front, front <+: path.parent.names → ∀ {workspace made : Workspace},
    p workspace → workspace.makeDirectory ⟨path.parent.anchor, front⟩ = .ok made → p made
  writeText : ∀ {workspace written : Workspace} {text : String}, p workspace →
    workspace.writeText path text = .ok written → p written

/-- The making of all directories on the way to a file keeps what work on the file keeps. -/
theorem Kept.makeDirectories [Stack] {p : Workspace → Prop} (h : Kept path p) (existOk : Bool)
    (hbefore : p workspace) : p (workspace.makeDirectories path.parent existOk).1 := by
  refine makeWay_keeps path.parent.anchor existOk Stack.missing path.parent.names.reverse ?_ hbefore
  rw [List.reverse_reverse]
  exact h.makeDirectory

/-- Work on a file stays in a frame that has the file and the way to it. -/
theorem kept_frame {directories files : Location → Prop}
    (hdirectories : ∀ location, workspace.OnTheWay path.parent location → directories location)
    (hfiles : files (workspace.destination path)) :
    Kept path (Frame directories files workspace) where
  makeDirectory := by
    intro front hfront middle made hframe hmade
    refine hframe.trans ((makeDirectory_frame hmade).mono ?_ fun _ => False.elim)
    intro location hat
    exact hdirectories location ⟨front, (makeDirectory_eq_ok hmade).2.1, hfront,
      hat.trans (hframe.destination_eq _)⟩
  writeText := by
    intro middle written text hframe hwritten
    refine hframe.trans ((writeText_frame hwritten).mono (fun _ => False.elim) ?_)
    intro location hat
    rwa [hat, hframe.destination_eq]

end Workspace

end MachineRbi
