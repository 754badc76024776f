import MachineRbi.Proofs.Files.Frame

/-!
# Closed file trees

In a file tree as a disk holds it, whatever stands somewhere stands in a directory. Trees in which
entries have been placed one by one are closed (`Closed.place`), and work on a file leaves a closed
one closed (`kept_closed`). In a closed tree what stands at the end of a path says that the path can
be walked, so work elsewhere cannot open the way to a file (`Frame.readText_iff`).
-/

namespace MachineRbi

namespace FileTree

variable {tree : FileTree} {location passed : Location} {entry : Entry} {names : List String}

/-- Whatever stands somewhere stands in a directory. -/
def Closed (tree : FileTree) : Prop :=
  ∀ location name, tree.entry? (location ++ [name]) ≠ none →
    tree.entry? location = some .directory

/-- Nothing but the root stands in the empty tree. -/
theorem entry?_empty (h : location ≠ []) : FileTree.entry? empty location = none := by
  unfold entry?
  rw [if_neg h, subtree_empty]
  rfl

/-- The tree with nothing but the root is closed. -/
theorem closed_empty : empty.Closed :=
  fun _ _ h => (h (entry?_empty (by simp))).elim

/-- A tree stays closed if an entry is set in a directory and no directory is replaced. -/
theorem Closed.set (h : tree.Closed) {name : String}
    (hparent : tree.entry? location = some .directory)
    (hother : tree.entry? (location ++ [name]) ≠ some .directory) (entry : Entry) :
    (tree.set (location ++ [name]) entry).Closed := by
  intro above child hchild
  rw [FileTree.entry?_set _ _ _ _ (by simp)] at hchild ⊢
  have hdirectory : tree.entry? above = some .directory := by
    by_cases hset : above ++ [child] = location ++ [name]
    · rw [(List.append_inj' hset rfl).1, hparent]
    · rw [if_neg hset] at hchild
      exact h above child hchild
  have hnot : above ≠ location ++ [name] := fun heq => hother (heq ▸ hdirectory)
  rw [if_neg hnot, hdirectory]

/-- The directories on the way to a location keep a tree closed, and then it ends in one. -/
theorem Closed.openWay (h : tree.Closed) (hstart : tree.entry? location = some .directory)
    (names : List String) :
    (tree.openWay location names).Closed ∧
      FileTree.entry? (tree.openWay location names) (location ++ names) = some .directory := by
  -- Each directory is made in the tree that the one above it has left.
  induction names generalizing tree location with
  | nil => exact ⟨h, by rwa [List.append_nil]⟩
  | cons name rest ih =>
      have hway : location ++ name :: rest = (location ++ [name]) ++ rest := List.append_cons ..
      rw [FileTree.openWay, hway]
      split
      next hdirectory => exact ih h hdirectory
      next hdirectory =>
        refine ih (h.set hstart hdirectory .directory) ?_
        rw [FileTree.entry?_set _ _ _ _ (by simp), if_pos rfl]

/-- The directories on the way to a location leave alone what is not on the way. -/
theorem entry?_openWay (h : ¬ location <+: passed ++ names) :
    FileTree.entry? (tree.openWay passed names) location = tree.entry? location := by
  induction names generalizing tree passed with
  | nil => rfl
  | cons name rest ih =>
      rw [List.append_cons] at h
      have hother : location ≠ passed ++ [name] := fun heq => h (heq ▸ List.prefix_append _ _)
      rw [openWay, ih h]
      split
      next => rfl
      next => rw [FileTree.entry?_set _ _ _ _ (by simp), if_neg hother]

/-- A tree stays closed if an entry is placed in it where no directory stands. -/
theorem Closed.place (h : tree.Closed) (hbelow : location ≠ [])
    (hother : FileTree.entry? (tree.openWay [] location.dropLast) location ≠ some .directory)
    (entry : Entry) : (tree.place location entry).Closed := by
  obtain ⟨hclosed, hparent⟩ := h.openWay (show tree.entry? [] = _ from rfl) location.dropLast
  rw [List.nil_append] at hparent
  unfold FileTree.place
  have hsplit := List.dropLast_concat_getLast hbelow
  rw [← hsplit] at hother ⊢
  rw [List.dropLast_concat] at hother ⊢
  exact hclosed.set hparent hother entry

/-- In a closed tree what stands somewhere stands below directories only. -/
theorem Closed.directory_above (h : tree.Closed) (hbelow : names ≠ [])
    (hentry : tree.entry? (location ++ names) ≠ none) :
    tree.entry? location = some .directory := by
  induction names generalizing location with
  | nil => exact (hbelow rfl).elim
  | cons name rest ih =>
      rw [List.append_cons] at hentry
      refine h location name ?_
      by_cases hrest : rest = []
      · rwa [hrest, List.append_nil] at hentry
      · rw [ih hrest hentry]
        simp

/-- In a closed tree the way to what stands somewhere can be passed. -/
theorem Closed.passes (h : tree.Closed) (hup : ".." ∉ names)
    (hshort : ∀ name ∈ names, isLongName name = false)
    (hentry : tree.entry? (location ++ names) ≠ none) : tree.Passes location names := by
  induction names generalizing location with
  | nil => trivial
  | cons name rest ih =>
      simp only [List.mem_cons, not_or] at hup
      have hstep : Location.step location name = location ++ [name] := if_neg (Ne.symm hup.1)
      refine ⟨h.directory_above (by simp) hentry, hshort name List.mem_cons_self, ?_⟩
      rw [hstep]
      rw [List.append_cons] at hentry
      exact ih hup.2 (fun other hmem => hshort other (List.mem_cons_of_mem _ hmem)) hentry

/-- No name on a way that can be passed is too long. -/
theorem Passes.short (h : tree.Passes location names) :
    ∀ name ∈ names, isLongName name = false := by
  induction names generalizing location with
  | nil => simp
  | cons name rest ih =>
      intro other hmem
      rcases List.mem_cons.mp hmem with rfl | hmem
      · exact h.2.1
      · exact ih h.2.2 other hmem

/-- In a closed tree the way up from a directory ends at a directory. -/
theorem Closed.dropLast (h : tree.Closed) (hdirectory : tree.entry? location = some .directory) :
    tree.entry? location.dropLast = some .directory := by
  by_cases hroot : location = []
  · rw [hroot]
    rfl
  · rw [← List.dropLast_concat_getLast hroot] at hdirectory
    refine h location.dropLast (location.getLast hroot) ?_
    rw [hdirectory]
    exact Option.some_ne_none _

/-- In a closed tree a way that can be passed ends at a directory or just below one. -/
theorem Closed.foldl_step (h : tree.Closed) (hstart : tree.entry? location = some .directory)
    (hpass : tree.Passes location names)
    (hother : tree.entry? (names.foldl Location.step location) ≠ some .directory) :
    ∃ above name, names.foldl Location.step location = above ++ [name] ∧
      tree.entry? above = some .directory := by
  induction names generalizing location with
  | nil => exact (hother hstart).elim
  | cons name rest ih =>
      rw [List.foldl_cons] at hother ⊢
      by_cases hnext : tree.entry? (Location.step location name) = some .directory
      · exact ih hnext hpass.2.2 hother
      · -- No name follows where no directory stands, and this name does not lead up to one.
        cases rest with
        | cons next others => exact (hnext hpass.2.2.1).elim
        | nil =>
            by_cases hup : name = ".."
            · rw [Location.step, if_pos hup] at hnext
              exact (hnext (h.dropLast hstart)).elim
            · exact ⟨location, name, if_neg hup, hstart⟩

end FileTree

namespace Workspace

variable {directories files : Location → Prop} {workspace before after : Workspace} {path : Path}

/-- The file tree is closed, and the working directory is a directory in it. -/
structure Closed (workspace : Workspace) : Prop where
  tree : workspace.tree.Closed
  here : workspace.tree.entry? workspace.here = some .directory

/-- In a closed workspace every walk starts at a directory. -/
theorem Closed.departure (h : workspace.Closed) (path : Path) :
    workspace.tree.entry? (workspace.departure path).1 = some .directory := by
  unfold Workspace.departure
  split
  next => exact h.tree.dropLast h.here
  next =>
    unfold start
    split
    · exact h.here
    · rfl

/-- A workspace stays closed if an entry is set at the end of a path where no directory stands. -/
theorem Closed.set (h : workspace.Closed) (hreach : workspace.Reaches path)
    (hother : workspace.tree.entry? (workspace.destination path) ≠ some .directory)
    (entry : Entry) : (workspace.set (workspace.destination path) entry).Closed := by
  have hhere : workspace.here ≠ workspace.destination path := fun heq => hother (heq ▸ h.here)
  have hroot := ne_root_of_entry hother
  constructor
  · obtain ⟨-, -, hpass⟩ := hreach
    rw [← foldl_departure] at hother
    obtain ⟨above, name, hat, habove⟩ := h.tree.foldl_step (h.departure path) hpass hother
    rw [hat] at hother
    rw [← foldl_departure, hat]
    exact h.tree.set habove hother entry
  · show FileTree.entry? (workspace.set _ entry).tree workspace.here = some .directory
    rw [entry?_set hroot, if_neg hhere]
    exact h.here

/-- A closed workspace stays so under work on any file. -/
theorem kept_closed (path : Path) : Kept path Closed where
  makeDirectory := by
    intro front _ workspace made hclosed hmade
    obtain ⟨hreach, -, hnone, rfl⟩ := makeDirectory_eq_ok hmade
    exact hclosed.set hreach (by simp [hnone]) .directory
  writeText := by
    intro workspace written text hclosed hwritten
    obtain ⟨hreach, -, hother, rfl⟩ := writeText_eq_ok hwritten
    exact hclosed.set hreach hother (.file text.toUTF8)

/-- A path that does not lead up starts where its anchor says. -/
theorem departure_eq (hup : ".." ∉ path.names) (workspace : Workspace) :
    workspace.departure path = (workspace.start path, path.names) := by
  unfold departure
  split
  next rest hanchor hnames => exact (hup (by simp [hnames])).elim
  next => rfl

/-- From a closed tree, a path that does not lead up comes to hold what it holds afterwards only by
changes at its end. -/
theorem Frame.holds_iff (h : Frame directories files before after)
    (hclosed : before.tree.Closed) (hup : ".." ∉ path.names)
    (haway : ¬ files (before.destination path)) {bytes : ByteArray} :
    after.Holds path bytes ↔ before.Holds path bytes := by
  constructor
  · rintro ⟨⟨hnull, hlong, hpass⟩, hnames, hentry⟩
    rw [h.destination_eq] at hentry
    have hbefore := (h.file_iff haway).mp hentry
    have hdestination : before.destination path = before.start path ++ path.names :=
      Location.foldl_step hup _
    rw [departure_eq hup] at hpass
    refine ⟨⟨hnull, hlong, ?_⟩, hnames, hbefore⟩
    rw [departure_eq hup]
    refine hclosed.passes hup hpass.short ?_
    rw [← hdestination, hbefore]
    simp
  · exact h.holds haway

/-- From a closed tree, a path that does not lead up comes to read what it reads afterwards only by
changes at its end. -/
theorem Frame.readText_iff (h : Frame directories files before after)
    (hclosed : before.tree.Closed) (hup : ".." ∉ path.names)
    (haway : ¬ files (before.destination path)) {text : String} :
    after.readText path = .ok text ↔ before.readText path = .ok text := by
  simp only [readText_eq_ok_iff, h.holds_iff hclosed hup haway]

end Workspace

end MachineRbi
