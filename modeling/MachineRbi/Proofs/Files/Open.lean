import MachineRbi.Proofs.Files.Making

/-!
# Where a file can be put

A file can be put at the end of a path if the path can be spelled, it starts at a directory, and
neither a file stands on the way nor a directory at the end. Changes that spare the path leave this
as it is (`Frame.open_iff`), and so does work on a file whose path is apart from it
(`Path.Apart.spared`).
-/

namespace MachineRbi

namespace Workspace

variable {workspace before after : Workspace} {path : Path} {directories files : Location → Prop}

/-- A file can be put at the end of a path once the directories on the way are there. -/
structure Open (workspace : Workspace) (path : Path) : Prop where
  spelled : path.Spelled
  named : path.names ≠ []
  clear : workspace.Clear path.parent
  vacant : workspace.tree.entry? (workspace.destination path) ≠ some .directory

/-- A file can be put where one stands. -/
theorem Holds.isOpen {bytes : ByteArray} (h : workspace.Holds path bytes)
    (hup : ".." ∉ path.names) : workspace.Open path := by
  obtain ⟨hreach, hnames, hentry⟩ := h
  have ⟨hnull, hlong, hpass⟩ := hreach
  rw [departure_eq hup] at hpass
  refine ⟨⟨hnull, hlong, hpass.short⟩, hnames, ⟨?_, ?_⟩, by simp [hentry]⟩
  · have hstart := directory_of_reaches hup hreach (List.nil_append _).symm hnames
    rwa [List.append_nil] at hstart
  · intro front hfront bytes hfile
    obtain ⟨back, hback, happend⟩ := Path.names_eq_append hnames hfront
    have hdirectory := directory_of_reaches hup hreach happend hback
    rw [start_parent, hdirectory] at hfile
    cases hfile

/-- If nothing stands where a file can be put, then nothing is found there. -/
theorem Open.pathExists_eq_false (h : workspace.Open path) (hclosed : workspace.tree.Closed)
    (hup : ".." ∉ path.names)
    (hnone : workspace.tree.entry? (workspace.destination path) = none) :
    workspace.pathExists path = .ok false := by
  have hmissed : workspace.entryAt path = .error .notFound := by
    rcases h.clear.directory_or_none List.prefix_rfl with habove | habove
    · have hlook := lookUp_eq_ok_iff.mpr
        ⟨reaches_of_directory hclosed hup h.spelled habove, rfl, rfl⟩
      rw [if_neg h.named, hnone] at hlook
      simp [entryAt, hlook, bind, Except.bind, throw, throwThe, MonadExceptOf.throw]
    · -- The way to the file is clear to its end, because nothing stands there.
      have hclear : workspace.Clear path := by
        refine ⟨h.clear.start, fun front hfront bytes hfile => ?_⟩
        rw [← List.dropLast_concat_getLast h.named, List.prefix_concat_iff,
          List.dropLast_concat_getLast h.named] at hfront
        rcases hfront with rfl | hfront
        · rw [← destination_eq_append hup, hnone] at hfile
          cases hfile
        · exact h.clear.way front hfront bytes hfile
      have hproper : path.names.dropLast ≠ path.names := fun heq => by
        have hlength := congrArg List.length heq
        have hpos := List.length_pos_iff.mpr h.named
        rw [List.length_dropLast] at hlength
        omega
      have hlocate := locate_eq_notFound hup h.spelled hclear (List.dropLast_prefix _) hproper
        habove
      simp [entryAt, lookUp, hlocate, bind, Except.bind]
  simp [pathExists, find?, hmissed, Except.map]

/-- A file that stands where one can be put is held by the path. -/
theorem Open.holds {bytes : ByteArray} (h : workspace.Open path) (hclosed : workspace.tree.Closed)
    (hup : ".." ∉ path.names)
    (hfile : workspace.tree.entry? (workspace.destination path) = some (.file bytes)) :
    workspace.Holds path bytes := by
  refine ⟨reaches_of_directory hclosed hup h.spelled ?_, h.named, hfile⟩
  refine hclosed _ (path.names.getLast h.named) ?_
  rw [List.append_assoc, List.dropLast_concat_getLast h.named, ← destination_eq_append hup, hfile]
  exact Option.some_ne_none _

/-- A text can be written where a file can be put in a directory. -/
theorem Open.writeText (h : workspace.Open path) (hreach : workspace.Reaches path)
    (text : String) :
    workspace.writeText path text =
      .ok (workspace.set (workspace.destination path) (.file text.toUTF8)) := by
  have hlook := lookUp_eq_ok_iff.mpr ⟨hreach, rfl, rfl⟩
  rw [if_neg h.named] at hlook
  simp [Workspace.writeText, hlook, h.vacant, bind, Except.bind, pure, Except.pure]

/-- A file can still be put at the end of a path if no file comes to stand on the way and no
directory at the end. -/
theorem Open.frame (h : before.Open path) (hframe : Frame directories files before after)
    (hway : ∀ front, front <+: path.parent.names → ¬ files (before.start path ++ front))
    (hend : ¬ directories (before.destination path)) : after.Open path := by
  refine ⟨h.spelled, h.named, h.clear.frame hframe hway, fun hdirectory => ?_⟩
  rw [hframe.destination_eq] at hdirectory
  rcases hframe.entry (before.destination path) with hsame | ⟨-, -, hmade⟩ | ⟨-, ⟨_, hfile⟩, -⟩
  · exact h.vacant (hsame ▸ hdirectory)
  · exact hend hmade
  · rw [hdirectory] at hfile
    cases hfile

/-- A file could be put at the end of a path before if it can be put there afterwards, no file has
come to stand on the way and the start has not been made. -/
theorem Open.of_frame (h : after.Open path) (hframe : Frame directories files before after)
    (hway : ∀ front, front <+: path.parent.names → ¬ files (before.start path ++ front))
    (hstart : ¬ directories (before.start path)) : before.Open path := by
  refine ⟨h.spelled, h.named, h.clear.of_frame hframe hway hstart, fun hdirectory => ?_⟩
  refine h.vacant ?_
  rw [hframe.destination_eq]
  exact hframe.directory hdirectory

/-! ## Empty trees -/

/-- From the root every path starts at the root. -/
theorem start_of_here_root (tree : FileTree) (path : Path) : start ⟨tree, []⟩ path = [] := by
  unfold start
  cases path.anchor <;> rfl

/-- In an empty tree nothing stands at the end of a path. -/
theorem entry?_destination_empty (hup : ".." ∉ path.names) (hnames : path.names ≠ []) :
    FileTree.entry? .empty (destination ⟨.empty, []⟩ path) = none := by
  rw [destination_eq_append hup, start_of_here_root, List.nil_append, FileTree.entry?_empty hnames]

/-- In an empty tree a file can be put at the end of every path that can be spelled. -/
theorem open_empty (hup : ".." ∉ path.names) (hspelled : path.Spelled)
    (hnames : path.names ≠ []) : Open ⟨.empty, []⟩ path := by
  have hvacant := entry?_destination_empty hup hnames
  refine ⟨hspelled, hnames, ⟨?_, ?_⟩, by simp [hvacant]⟩
  · rw [start_of_here_root]
    rfl
  · intro front hfront bytes hfile
    rw [start_of_here_root, List.nil_append] at hfile
    by_cases hnil : front = []
    · rw [hnil] at hfile
      cases hfile
    · rw [FileTree.entry?_empty hnil] at hfile
      cases hfile

/-- In an empty tree all directories on the way along a path are missing. -/
theorem missesAtMost_empty_iff {count : Nat} (hup : ".." ∉ path.names) :
    MissesAtMost ⟨.empty, []⟩ count path ↔ path.names.length ≤ count := by
  rw [MissesAtMost, destination_eq_append (fun hmem => hup (List.mem_of_mem_take hmem)),
    start_of_here_root, List.nil_append]
  constructor
  · intro hdirectory
    refine Nat.not_lt.mp fun hmany => ?_
    rw [FileTree.entry?_empty] at hdirectory
    · cases hdirectory
    · intro hnil
      have hlength := congrArg List.length hnil
      rw [List.length_take, List.length_nil] at hlength
      omega
  · intro hfew
    rw [Nat.sub_eq_zero_of_le hfew]
    rfl

/-! ## Changes elsewhere -/

/-- Changes at these locations spare a path: no file changes on the way to its end or there, and no
directory is new at its start or its end. -/
structure Spared (workspace : Workspace) (directories files : Location → Prop) (path : Path) :
    Prop where
  file : ∀ front, front <+: path.names → ¬ files (workspace.start path ++ front)
  start : ¬ directories (workspace.start path)
  dest : ¬ directories (workspace.destination path)

/-- Fewer changes spare a path too. -/
theorem Spared.mono {directories' files' : Location → Prop}
    (h : workspace.Spared directories files path)
    (hdirectories : ∀ location, directories' location → directories location)
    (hfiles : ∀ location, files' location → files location) :
    workspace.Spared directories' files' path :=
  ⟨fun front hfront hat => h.file front hfront (hfiles _ hat),
    fun hat => h.start (hdirectories _ hat), fun hat => h.dest (hdirectories _ hat)⟩

/-- A file can be put at the end of a path that is spared exactly if it could be before. -/
theorem Frame.open_iff (h : Frame directories files before after)
    (hspared : before.Spared directories files path) :
    after.Open path ↔ before.Open path := by
  have hway : ∀ front, front <+: path.parent.names → ¬ files (before.start path ++ front) :=
    fun front hfront => hspared.file front (hfront.trans (List.dropLast_prefix _))
  exact ⟨fun hopen => hopen.of_frame h hway hspared.start,
    fun hopen => hopen.frame h hway hspared.dest⟩

/-- What stands at the end of a path that is spared stays. -/
theorem Frame.entry_destination (h : Frame directories files before after)
    (hspared : before.Spared directories files path) (hup : ".." ∉ path.names) :
    after.tree.entry? (before.destination path) =
      before.tree.entry? (before.destination path) := by
  rcases h.entry (before.destination path) with hsame | ⟨-, -, hmade⟩ | ⟨-, -, hfile⟩
  · exact hsame
  · exact (hspared.dest hmade).elim
  · rw [destination_eq_append hup] at hfile
    exact (hspared.file _ List.prefix_rfl hfile).elim

end Workspace

/-- Two paths from the same start are apart if neither goes on where the other ends. -/
structure Path.Apart (a b : Path) : Prop where
  anchor_eq : a.anchor = b.anchor
  left : ¬ a.names <+: b.names
  right : ¬ b.names <+: a.names

/-- What is apart one way is apart the other way. -/
theorem Path.Apart.symm {a b : Path} (h : a.Apart b) : b.Apart a :=
  ⟨h.anchor_eq.symm, h.right, h.left⟩

/-- Work on a file spares the paths that are apart from its path. -/
theorem Path.Apart.spared {a b : Path} (h : a.Apart b) (hup : ".." ∉ a.names)
    (hupOther : ".." ∉ b.names) (workspace : Workspace) :
    workspace.Spared (workspace.OnTheWay a.parent) (· = workspace.destination a) b := by
  have hupParent := Path.up_not_mem_parent hup
  have hstart : workspace.start b = workspace.start a := by
    simp only [Workspace.start, h.anchor_eq]
  refine ⟨?_, ?_, ?_⟩
  · intro front hfront hat
    rw [hstart, Workspace.destination_eq_append hup, List.append_cancel_left_eq] at hat
    exact h.left (hat ▸ hfront)
  · rw [hstart]
    exact Workspace.not_onTheWay_start hupParent
  · rw [Workspace.onTheWay_iff hupParent]
    rintro ⟨front, -, hfront, hat⟩
    rw [Workspace.destination_eq_append hupOther, hstart, Workspace.start_parent,
      List.append_cancel_left_eq] at hat
    exact h.right (hat ▸ hfront.trans (List.dropLast_prefix _))

end MachineRbi
