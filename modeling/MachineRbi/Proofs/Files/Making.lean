import MachineRbi.Proofs.Files.Closed
import MachineRbi.Proofs.Files.Path

/-!
# Making the directories on a way

The directories along a path are made from the end: where the directory above is missing it is made
first. On a way that starts at a directory and has no file on it this succeeds exactly if not more
directories are missing than can be made at once, and otherwise no directory is made
(`makeDirectories_cases`).
-/

namespace MachineRbi

namespace FileTree

variable {tree : FileTree} {location : Location} {names front : List String}

/-- A way in two parts can be passed exactly if both parts can. -/
theorem passes_append {back : List String} :
    tree.Passes location (front ++ back) ↔
      tree.Passes location front ∧ tree.Passes (front.foldl Location.step location) back := by
  induction front generalizing location with
  | nil => exact (and_iff_right trivial).symm
  | cons name rest ih =>
      simp only [List.cons_append, Passes, List.foldl_cons, ih, and_assoc]

/-- In a closed tree the locations on the way to a directory are directories. -/
theorem Closed.directory_of_prefix (h : tree.Closed) (hfront : front <+: names)
    (hdirectory : tree.entry? (location ++ names) = some .directory) :
    tree.entry? (location ++ front) = some .directory := by
  obtain ⟨back, rfl⟩ := hfront
  by_cases hback : back = []
  · rwa [hback, List.append_nil] at hdirectory
  · refine h.directory_above hback ?_
    rw [List.append_assoc, hdirectory]
    exact Option.some_ne_none _

/-- In a closed tree the way into a directory can be passed. -/
theorem Closed.passes_of_directory (h : tree.Closed) (hup : ".." ∉ names)
    (hshort : ∀ name ∈ names, isLongName name = false)
    (hdirectory : tree.entry? (location ++ names.dropLast) = some .directory) :
    tree.Passes location names := by
  by_cases hnames : names = []
  · rw [hnames]
    trivial
  · rw [← List.dropLast_concat_getLast hnames] at hup hshort ⊢
    generalize names.getLast hnames = last at hup hshort ⊢
    simp only [List.mem_append, not_or] at hup
    have habove : tree.Passes location names.dropLast :=
      h.passes hup.1 (fun name hmem => hshort name (List.mem_append_left _ hmem))
        (by rw [hdirectory]; exact Option.some_ne_none _)
    refine passes_append.mpr ⟨habove, ?_, hshort last (by simp), trivial⟩
    rwa [Location.foldl_step hup.1]

/-- A walk along which no file stands finds nothing if nothing stands at a location on its way. -/
theorem walk_eq_notFound (hup : ".." ∉ names) (hshort : ∀ name ∈ names, isLongName name = false)
    (hfiles : ∀ passed, passed <+: names → ∀ bytes,
      tree.entry? (location ++ passed) ≠ some (.file bytes))
    (hfront : front <+: names) (hproper : front ≠ names)
    (hnone : tree.entry? (location ++ front) = none) :
    tree.walk location names = .error .notFound := by
  induction names generalizing location front with
  | nil => exact (hproper (List.prefix_nil.mp hfront)).elim
  | cons name rest ih =>
      simp only [List.mem_cons, not_or] at hup
      rw [walk_cons]
      cases hentry : tree.entry? location with
      | none => rfl
      | some entry =>
          cases entry with
          | file bytes => exact (hfiles [] List.nil_prefix bytes (by simpa using hentry)).elim
          | directory =>
              have hstep : Location.step location name = location ++ [name] :=
                if_neg (Ne.symm hup.1)
              simp only [hshort name List.mem_cons_self, Bool.false_eq_true, ↓reduceIte]
              cases front with
              | nil =>
                  rw [List.append_nil, hentry] at hnone
                  cases hnone
              | cons first others =>
                  obtain ⟨rfl, hothers⟩ := List.cons_prefix_cons.mp hfront
                  rw [hstep]
                  refine ih hup.2 (fun other hmem => hshort other (List.mem_cons_of_mem _ hmem)) ?_
                    hothers (fun heq => hproper (by rw [heq])) (by rwa [← List.append_cons])
                  intro passed hpassed bytes
                  rw [← List.append_cons]
                  exact hfiles _ (List.cons_prefix_cons.mpr ⟨rfl, hpassed⟩) bytes

end FileTree

namespace Path

/-- The text and the names of a path are ones that the path of a file can have. -/
structure Spelled (path : Path) : Prop where
  hasNull : Workspace.hasNull path = false
  isLongPath : Workspace.isLongPath path = false
  short : ∀ name ∈ path.names, isLongName name = false

/-- A path that stops earlier can be spelled too. -/
theorem Spelled.of_prefix {anchor : Anchor} {names front : List String}
    (h : Spelled ⟨anchor, names⟩) (hfront : front <+: names) : Spelled ⟨anchor, front⟩ := by
  refine ⟨?_, ?_, fun name hmem => h.short name (hfront.subset hmem)⟩
  · have hnull := h.hasNull
    simp only [Workspace.hasNull, List.any_eq_false] at hnull ⊢
    exact fun name hmem => hnull name (hfront.subset hmem)
  · -- The text of no names is short, and names add to a text.
    by_cases hnone : front = []
    · rw [hnone]
      cases anchor <;> decide
    · obtain ⟨back, rfl⟩ := hfront
      have hsize := size_joinNames_le front back
      have hlong := h.isLongPath
      simp only [Workspace.isLongPath, decide_eq_false_iff_not, Nat.not_lt, text, hnone,
        List.append_eq_nil_iff, decide_false, Bool.and_false, Bool.false_eq_true, ↓reduceIte,
        false_and, String.utf8ByteSize_append] at hlong ⊢
      omega

/-- Short names without null characters spell a path if they are not too long together. -/
theorem Spelled.of_slashedSize {names : List String}
    (hnames : ∀ name ∈ names, '\x00' ∉ name.toList ∧ isLongName name = false)
    (hsize : slashedSize names ≤ 4095) :
    Spelled ⟨.here, names⟩ := by
  refine ⟨?_, ?_, fun name hmem => (hnames name hmem).2⟩
  · simp only [Workspace.hasNull, List.any_eq_false]
    exact fun name hmem hnull => (hnames name hmem).1 (List.contains_iff_mem.mp hnull)
  · have hjoined := size_joinNames_le_slashedSize names
    simp only [Workspace.isLongPath, decide_eq_false_iff_not, Nat.not_lt, text]
    split
    · decide
    · rw [anchorText, String.empty_append]
      omega

end Path

namespace Workspace

variable {workspace before after made : Workspace} {path : Path}
  {directories files : Location → Prop} {anchor : Anchor}

/-- A path that does not lead up ends below its start. -/
theorem destination_eq_append (hup : ".." ∉ path.names) (workspace : Workspace) :
    workspace.destination path = workspace.start path ++ path.names :=
  Location.foldl_step hup _

/-- Paths start where they started before. -/
theorem Frame.start_eq (h : Frame directories files before after)
    (path : Path) : after.start path = before.start path := by
  simp only [start, h.here_eq]

/-- The directory above the end of a path has the start of the path. -/
theorem start_parent (workspace : Workspace) (path : Path) :
    workspace.start path.parent = workspace.start path :=
  rfl

/-- The way along a path starts at a directory, and no file stands on it. -/
structure Clear (workspace : Workspace) (path : Path) : Prop where
  start : workspace.tree.entry? (workspace.start path) = some .directory
  way : ∀ front, front <+: path.names → ∀ bytes,
    workspace.tree.entry? (workspace.start path ++ front) ≠ some (.file bytes)

/-- On a clear way a directory stands or nothing. -/
theorem Clear.directory_or_none (h : workspace.Clear path) {front : List String}
    (hfront : front <+: path.names) :
    workspace.tree.entry? (workspace.start path ++ front) = some .directory ∨
      workspace.tree.entry? (workspace.start path ++ front) = none := by
  cases hentry : workspace.tree.entry? (workspace.start path ++ front) with
  | none => exact .inr rfl
  | some entry =>
      cases entry with
      | file bytes => exact (h.way front hfront bytes hentry).elim
      | directory => exact .inl rfl

/-- A clear way stays clear if no file comes to stand on it. -/
theorem Clear.frame (h : before.Clear path) (hframe : Frame directories files before after)
    (hway : ∀ front, front <+: path.names → ¬ files (before.start path ++ front)) :
    after.Clear path where
  start := by
    rw [hframe.start_eq]
    exact hframe.directory h.start
  way := by
    intro front hfront bytes hfile
    rw [hframe.start_eq] at hfile
    exact h.way front hfront bytes ((hframe.file_iff (hway front hfront)).mp hfile)

/-- A clear way was clear before if no file has come to stand on it and its start has not been
made. -/
theorem Clear.of_frame (h : after.Clear path) (hframe : Frame directories files before after)
    (hway : ∀ front, front <+: path.names → ¬ files (before.start path ++ front))
    (hstart : ¬ directories (before.start path)) : before.Clear path where
  start := by
    have hafter := h.start
    rw [hframe.start_eq] at hafter
    rcases hframe.entry (before.start path) with hsame | ⟨-, -, hmade⟩ | ⟨-, ⟨bytes, hfile⟩, -⟩
    · exact hsame ▸ hafter
    · exact (hstart hmade).elim
    · rw [hafter] at hfile
      cases hfile
  way := by
    intro front hfront bytes hfile
    refine h.way front hfront bytes ?_
    rw [hframe.start_eq]
    exact (hframe.file_iff (hway front hfront)).mpr hfile

/-! ## Making one directory -/

/-- In a closed tree the end of a path that can be spelled is reached if it is in a directory. -/
theorem reaches_of_directory (hclosed : workspace.tree.Closed) (hup : ".." ∉ path.names)
    (hspelled : path.Spelled)
    (hdirectory : workspace.tree.entry? (workspace.start path ++ path.names.dropLast) =
      some .directory) : workspace.Reaches path := by
  refine ⟨hspelled.hasNull, hspelled.isLongPath, ?_⟩
  rw [departure_eq hup]
  exact hclosed.passes_of_directory hup hspelled.short hdirectory

/-- A path is not located if nothing stands at a location on its way. -/
theorem locate_eq_notFound (hup : ".." ∉ path.names) (hspelled : path.Spelled)
    (hclear : workspace.Clear path) {front : List String} (hfront : front <+: path.names)
    (hproper : front ≠ path.names)
    (hnone : workspace.tree.entry? (workspace.start path ++ front) = none) :
    workspace.locate path = .error .notFound := by
  rw [locate_eq_walk, departure_eq hup, hspelled.hasNull, hspelled.isLongPath]
  exact FileTree.walk_eq_notFound hup hspelled.short hclear.way hfront hproper hnone

/-- A directory can be made where nothing stands. -/
theorem makeDirectory_of_none (hreach : workspace.Reaches path) (hnames : path.names ≠ [])
    (hnone : workspace.tree.entry? (workspace.destination path) = none) :
    workspace.makeDirectory path = .ok (workspace.set (workspace.destination path) .directory) := by
  have hlook := lookUp_eq_ok_iff.mpr ⟨hreach, rfl, rfl⟩
  rw [if_neg hnames, hnone] at hlook
  simp [makeDirectory, hlook, bind, Except.bind, pure, Except.pure]

/-- A directory that is found cannot be made, and can be told to be there. -/
theorem makeDirectory_of_lookUp {goal : Location}
    (hlook : workspace.lookUp path = .ok (goal, some .directory)) :
    workspace.makeDirectory path = .error .alreadyExists ∧
      workspace.isDirectory path = .ok true := by
  constructor
  · simp [makeDirectory, hlook, bind, Except.bind, throw, throwThe, MonadExceptOf.throw]
  · simp [isDirectory, find?, entryAt, hlook, bind, Except.bind, pure, Except.pure, Except.map]

/-- A directory that is there cannot be made, and can be told to be there. -/
theorem makeDirectory_of_directory (hreach : workspace.Reaches path)
    (hdirectory : workspace.tree.entry? (workspace.destination path) = some .directory) :
    workspace.makeDirectory path = .error .alreadyExists ∧
      workspace.isDirectory path = .ok true := by
  have hlook := lookUp_eq_ok_iff.mpr ⟨hreach, rfl, rfl⟩
  rw [hdirectory, ite_self] at hlook
  exact makeDirectory_of_lookUp hlook

/-- A directory cannot be made where its path is not located. -/
theorem makeDirectory_of_locate {fault : FileFault} (h : workspace.locate path = .error fault) :
    workspace.makeDirectory path = .error fault := by
  simp [makeDirectory, lookUp, h, bind, Except.bind]

/-- A path that does not lead up passes directories before it reaches its end. -/
theorem directory_of_reaches (hup : ".." ∉ path.names) (hreach : workspace.Reaches path)
    {front back : List String} (hnames : path.names = front ++ back) (hback : back ≠ []) :
    workspace.tree.entry? (workspace.start path ++ front) = some .directory := by
  obtain ⟨-, -, hpass⟩ := hreach
  rw [departure_eq hup] at hpass
  dsimp only at hpass
  rw [hnames] at hup hpass
  simp only [List.mem_append, not_or] at hup
  have hbehind := (FileTree.passes_append.mp hpass).2
  rw [Location.foldl_step hup.1] at hbehind
  cases back with
  | nil => exact (hback rfl).elim
  | cons name rest => exact hbehind.1

/-- A tree stays closed when an entry is set at the end of a path that does not lead up. -/
theorem set_closed (hclosed : workspace.tree.Closed) (hup : ".." ∉ path.names)
    (hreach : workspace.Reaches path) (hnames : path.names ≠ [])
    (hother : workspace.tree.entry? (workspace.destination path) ≠ some .directory)
    (entry : Entry) :
    FileTree.Closed (workspace.set (workspace.destination path) entry).tree := by
  have hlast := (List.dropLast_concat_getLast hnames).symm
  have habove := directory_of_reaches hup hreach hlast (List.cons_ne_nil _ _)
  have hend : workspace.destination path =
      (workspace.start path ++ path.names.dropLast) ++ [path.names.getLast hnames] := by
    rw [destination_eq_append hup, List.append_assoc, ← hlast]
  rw [hend] at hother ⊢
  exact hclosed.set habove hother entry

/-- A tree stays closed under work on a file that is reached without leading up. -/
theorem kept_tree_closed (hup : ".." ∉ path.names) :
    Kept path fun workspace => workspace.tree.Closed where
  makeDirectory := by
    intro front hfront workspace made hclosed hmade
    obtain ⟨hreach, hnames, hnone, rfl⟩ := makeDirectory_eq_ok hmade
    have hfrontUp : ".." ∉ front := fun hmem => Path.up_not_mem_parent hup (hfront.subset hmem)
    exact set_closed hclosed hfrontUp hreach hnames (by simp [hnone]) .directory
  writeText := by
    intro workspace written text hclosed hwritten
    obtain ⟨hreach, hnames, hother, rfl⟩ := writeText_eq_ok hwritten
    exact set_closed hclosed hup hreach hnames hother (.file text.toUTF8)

/-! ## Making the directories on a way -/

/-- At most so many directories are missing on the way along a path. -/
def MissesAtMost (workspace : Workspace) (count : Nat) (path : Path) : Prop :=
  workspace.tree.entry? (workspace.destination
    ⟨path.anchor, path.names.take (path.names.length - count)⟩) = some .directory

/-- If so many directories are missing up to a last one, that one is one more. -/
theorem missesAtMost_concat {init : List String} {last : String} {count : Nat}
    (hcount : count ≠ 0) :
    workspace.MissesAtMost count ⟨anchor, init ++ [last]⟩ ↔
      workspace.MissesAtMost (count - 1) ⟨anchor, init⟩ := by
  have htake : (init ++ [last]).take ((init ++ [last]).length - count) =
      init.take (init.length - (count - 1)) := by
    have hlength : (init ++ [last]).length - count = init.length - (count - 1) := by
      simp only [List.length_append, List.length_cons, List.length_nil]
      omega
    rw [hlength, List.take_append_of_le_length (Nat.sub_le _ _)]
  unfold MissesAtMost
  dsimp only
  rw [htake]

/-- Directories that are there stay, so no more are missing later. -/
theorem MissesAtMost.frame {count : Nat} (h : before.MissesAtMost count path)
    (hframe : Frame directories files before after) : after.MissesAtMost count path := by
  rw [MissesAtMost, hframe.destination_eq]
  exact hframe.directory h

/-- On the way to a directory of a closed tree none is missing. -/
theorem missesAtMost_of_directory (hclosed : workspace.tree.Closed) (hup : ".." ∉ path.names)
    (hdirectory : workspace.tree.entry? (workspace.destination path) = some .directory)
    (count : Nat) : workspace.MissesAtMost count path := by
  have htake : path.names.take (path.names.length - count) <+: path.names :=
    List.take_prefix _ _
  rw [destination_eq_append hup] at hdirectory
  rw [MissesAtMost, destination_eq_append (fun hmem => hup (htake.subset hmem))]
  exact hclosed.directory_of_prefix htake hdirectory

/-- Where the directory above is there and no file is in its place, a directory can be made or is
there already. -/
theorem makeDirectory_cases (hclosed : workspace.tree.Closed) (hup : ".." ∉ path.names)
    (hspelled : path.Spelled) (hclear : workspace.Clear path)
    (habove : workspace.tree.entry? (workspace.start path ++ path.names.dropLast) =
      some .directory) :
    (∃ made, workspace.makeDirectory path = .ok made ∧
        made.tree.entry? (workspace.destination path) = some .directory) ∨
      workspace.makeDirectory path = .error .alreadyExists ∧
        workspace.isDirectory path = .ok true ∧
        workspace.tree.entry? (workspace.destination path) = some .directory := by
  have hreach := reaches_of_directory hclosed hup hspelled habove
  rcases hclear.directory_or_none List.prefix_rfl with hdirectory | hnone
  · rw [← destination_eq_append hup] at hdirectory
    obtain ⟨hexists, his⟩ := makeDirectory_of_directory hreach hdirectory
    exact .inr ⟨hexists, his, hdirectory⟩
  · have hnames : path.names ≠ [] := by
      intro hnil
      rw [hnil, List.append_nil, hclear.start] at hnone
      cases hnone
    rw [← destination_eq_append hup] at hnone
    have hother : workspace.tree.entry? (workspace.destination path) ≠ some .directory := by
      simp [hnone]
    refine .inl ⟨_, makeDirectory_of_none hreach hnames hnone, ?_⟩
    rw [entry?_set (ne_root_of_entry hother), if_pos rfl]

/-- The making of a way changes the locations on it only. -/
theorem makeWay_frame (anchor : Anchor) (existOk : Bool) (workspace : Workspace) (missing : Nat)
    (reversed : List String) :
    Frame (workspace.OnTheWay ⟨anchor, reversed.reverse⟩) (fun _ => False) workspace
      (makeWay anchor existOk workspace missing reversed).1 := by
  refine makeWay_keeps anchor existOk missing reversed ?_ (.refl workspace)
  intro front hfront middle made hframe hmade
  refine hframe.trans ((makeDirectory_frame hmade).mono ?_ fun _ => id)
  intro location hat
  exact ⟨front, (makeDirectory_eq_ok hmade).2.1, hfront, hat.trans (hframe.destination_eq _)⟩

/-- The making of a way that does not lead up keeps a tree closed. -/
theorem makeWay_closed (anchor : Anchor) {reversed : List String} (hup : ".." ∉ reversed.reverse)
    (existOk : Bool) (missing : Nat) (hclosed : workspace.tree.Closed) :
    (makeWay anchor existOk workspace missing reversed).1.tree.Closed := by
  refine makeWay_keeps (p := fun found => found.tree.Closed) anchor existOk missing reversed ?_
    hclosed
  intro front hfront middle made hmiddle hmade
  obtain ⟨hreach, hnames, hnone, rfl⟩ := makeDirectory_eq_ok hmade
  exact set_closed hmiddle (fun hmem => hup (hfront.subset hmem)) hreach hnames (by simp [hnone])
    .directory

/-- The way along a path is made, and ends at a directory. -/
def MakesWay (workspace : Workspace) (missing : Nat) (anchor : Anchor) (reversed : List String) :
    Prop :=
  ∃ made, makeWay anchor true workspace missing reversed = (made, .ok ()) ∧
    made.tree.entry? (workspace.destination ⟨anchor, reversed.reverse⟩) = some .directory

section Step

variable {name : String} {rest : List String} {missing : Nat}
  (hup : ".." ∉ rest.reverse ++ [name]) (hspelled : Path.Spelled ⟨anchor, rest.reverse ++ [name]⟩)
  (hclear : workspace.Clear ⟨anchor, rest.reverse ++ [name]⟩)
include hup hspelled hclear

/-- Where the directory above is there, the first attempt makes the way. -/
theorem makesWay_of_above (hclosed : workspace.tree.Closed)
    (habove : workspace.tree.entry? (workspace.start ⟨anchor, []⟩ ++ rest.reverse) =
      some .directory) : workspace.MakesWay missing anchor (name :: rest) := by
  have hdropLast : (rest.reverse ++ [name]).dropLast = rest.reverse := List.dropLast_concat
  unfold MakesWay
  rw [List.reverse_cons]
  rcases makeDirectory_cases hclosed hup hspelled hclear (by rwa [hdropLast]) with
    ⟨made, hmade, hentry⟩ | ⟨hexists, his, hentry⟩
  · refine ⟨made, ?_, hentry⟩
    simp [makeWay, hmade]
  · refine ⟨workspace, ?_, hentry⟩
    simp [makeWay, hexists, acceptDirectory, his, bind, Except.bind, pure, Except.pure]

/-- Where the directory above is missing but the way to it is made, the second attempt makes the
way. -/
theorem makesWay_of_missed (hclosed : workspace.tree.Closed) (hmissing : ¬ missing ≤ 1)
    (hmissed : workspace.makeDirectory ⟨anchor, rest.reverse ++ [name]⟩ = .error .notFound)
    (habove : workspace.MakesWay (missing - 1) anchor rest) :
    workspace.MakesWay missing anchor (name :: rest) := by
  obtain ⟨middle, hmiddle, hentry⟩ := habove
  have hupAbove : ".." ∉ rest.reverse := fun hmem => hup (List.mem_append_left _ hmem)
  have hframe := makeWay_frame anchor true workspace (missing - 1) rest
  have hclosedMiddle := makeWay_closed anchor hupAbove true (missing - 1) hclosed
  rw [hmiddle] at hframe hclosedMiddle
  have haboveMiddle : middle.tree.entry? (middle.start ⟨anchor, rest.reverse ++ [name]⟩ ++
      (rest.reverse ++ [name]).dropLast) = some .directory := by
    rw [List.dropLast_concat, hframe.start_eq]
    rwa [destination_eq_append hupAbove] at hentry
  have hclearMiddle := hclear.frame hframe fun _ _ => id
  unfold MakesWay
  rw [List.reverse_cons, ← hframe.destination_eq]
  rcases makeDirectory_cases hclosedMiddle hup hspelled hclearMiddle haboveMiddle with
    ⟨made, hmade, hend⟩ | ⟨hexists, his, hend⟩
  · refine ⟨made, ?_, hend⟩
    simp [makeWay, hmissed, hmissing, hmiddle, hmade]
  · refine ⟨middle, ?_, hend⟩
    simp [makeWay, hmissed, hmissing, hmiddle, hexists, acceptDirectory, his, bind, Except.bind,
      pure, Except.pure]

end Step

/-- A clear way is made exactly if not more directories are missing on it than can be made at once,
and otherwise nothing is made. -/
theorem makeWay_cases {reversed : List String} {missing : Nat} (hmissing : missing ≠ 0)
    (hclosed : workspace.tree.Closed) (hup : ".." ∉ reversed.reverse)
    (hspelled : Path.Spelled ⟨anchor, reversed.reverse⟩)
    (hclear : workspace.Clear ⟨anchor, reversed.reverse⟩) :
    (workspace.MakesWay missing anchor reversed ∧
        workspace.MissesAtMost missing ⟨anchor, reversed.reverse⟩) ∨
      makeWay anchor true workspace missing reversed = (workspace, .error .tooDeep) ∧
        ¬ workspace.MissesAtMost missing ⟨anchor, reversed.reverse⟩ := by
  induction reversed generalizing missing with
  | nil =>
      have hstart : workspace.tree.entry? (workspace.destination ⟨anchor, [].reverse⟩) =
          some .directory := hclear.start
      have hreach : workspace.Reaches ⟨anchor, []⟩ :=
        reaches_of_directory hclosed hup hspelled (by simpa using hclear.start)
      obtain ⟨hexists, his⟩ := makeDirectory_of_directory hreach hstart
      refine .inl ⟨⟨workspace, ?_, hstart⟩, missesAtMost_of_directory hclosed hup hstart missing⟩
      simp [makeWay, hexists, acceptDirectory, his, bind, Except.bind, pure, Except.pure]
  | cons name rest ih =>
      rw [List.reverse_cons] at hup hspelled hclear ⊢
      have hupAbove : ".." ∉ rest.reverse := fun hmem => hup (List.mem_append_left _ hmem)
      have hinit : rest.reverse <+: rest.reverse ++ [name] := List.prefix_append _ _
      rw [missesAtMost_concat hmissing]
      rcases hclear.directory_or_none hinit with habove | hnone
      · refine .inl ⟨makesWay_of_above hup hspelled hclear hclosed habove, ?_⟩
        refine missesAtMost_of_directory hclosed hupAbove ?_ (missing - 1)
        rwa [destination_eq_append hupAbove]
      · have hmissed : workspace.makeDirectory ⟨anchor, rest.reverse ++ [name]⟩ =
            .error .notFound :=
          makeDirectory_of_locate (locate_eq_notFound hup hspelled hclear hinit (by simp) hnone)
        by_cases hlast : missing ≤ 1
        · -- One more directory is missing, and none can be made any more.
          refine .inr ⟨by simp [makeWay, hmissed, hlast], fun hfew => ?_⟩
          rw [show missing - 1 = 0 by omega, MissesAtMost, Nat.sub_zero, List.take_length,
            destination_eq_append hupAbove] at hfew
          exact absurd (hnone.symm.trans hfew) (by simp)
        · have hclearAbove : workspace.Clear ⟨anchor, rest.reverse⟩ :=
            ⟨hclear.start, fun front hfront => hclear.way front (hfront.trans hinit)⟩
          have hfewer : missing - 1 ≠ 0 := by omega
          refine (ih hfewer hupAbove (hspelled.of_prefix hinit) hclearAbove).imp ?_ ?_
          · rintro ⟨habove, hfew⟩
            exact ⟨makesWay_of_missed hup hspelled hclear hclosed hlast hmissed habove, hfew⟩
          · rintro ⟨hdeep, hmany⟩
            exact ⟨by simp [makeWay, hmissed, hlast, hdeep], hmany⟩

/-- The directories along a clear path can be made exactly if not more of them are missing than can
be made at once, and otherwise none is made. -/
theorem makeDirectories_cases [Stack] (hclosed : workspace.tree.Closed) (hup : ".." ∉ path.names)
    (hspelled : path.Spelled) (hclear : workspace.Clear path) :
    (∃ made, workspace.makeDirectories path true = (made, .ok ()) ∧
        made.tree.entry? (workspace.destination path) = some .directory ∧
        workspace.MissesAtMost Stack.missing path) ∨
      workspace.makeDirectories path true = (workspace, .error .tooDeep) ∧
        ¬ workspace.MissesAtMost Stack.missing path := by
  obtain ⟨anchor, names⟩ := path
  obtain ⟨reversed, rfl⟩ : ∃ reversed : List String, names = reversed.reverse :=
    ⟨_, names.reverse_reverse.symm⟩
  have hcases := makeWay_cases (Nat.ne_of_gt Stack.missing_pos) hclosed hup hspelled hclear
  unfold makeDirectories
  dsimp only
  rw [List.reverse_reverse]
  refine hcases.imp ?_ id
  rintro ⟨⟨made, hmade, hentry⟩, hfew⟩
  exact ⟨made, hmade, hentry, hfew⟩

/-- The making of the directories along a path changes the locations on it only. -/
theorem makeDirectories_frame [Stack] (workspace : Workspace) (path : Path) (existOk : Bool) :
    Frame (workspace.OnTheWay path) (fun _ => False) workspace
      (workspace.makeDirectories path existOk).1 := by
  have hframe := makeWay_frame path.anchor existOk workspace Stack.missing path.names.reverse
  rwa [List.reverse_reverse] at hframe

/-- The making of the directories along a path that does not lead up keeps a tree closed. -/
theorem makeDirectories_closed [Stack] (hclosed : workspace.tree.Closed)
    (hup : ".." ∉ path.names) (existOk : Bool) :
    (workspace.makeDirectories path existOk).1.tree.Closed :=
  makeWay_closed path.anchor (by rwa [List.reverse_reverse]) existOk Stack.missing hclosed

/-- If a path does not lead up, its way goes on from its start. -/
theorem onTheWay_iff (hup : ".." ∉ path.names) {location : Location} :
    workspace.OnTheWay path location ↔
      ∃ front, front ≠ [] ∧ front <+: path.names ∧ location = workspace.start path ++ front := by
  have hend : ∀ front, front <+: path.names →
      workspace.destination ⟨path.anchor, front⟩ = workspace.start path ++ front :=
    fun front hfront => destination_eq_append (fun hmem => hup (hfront.subset hmem)) workspace
  constructor
  · rintro ⟨front, hsome, hfront, hat⟩
    exact ⟨front, hsome, hfront, hat.trans (hend front hfront)⟩
  · rintro ⟨front, hsome, hfront, hat⟩
    exact ⟨front, hsome, hfront, hat.trans (hend front hfront).symm⟩

/-- A path that does not lead up does not come back to its start. -/
theorem not_onTheWay_start (hup : ".." ∉ path.names) :
    ¬ workspace.OnTheWay path (workspace.start path) := by
  rw [onTheWay_iff hup]
  rintro ⟨front, hsome, -, hat⟩
  exact hsome (List.self_eq_append_right.mp hat)

/-- A path that does not lead up does not end at a location before its last name. -/
theorem ne_destination_of_front (hup : ".." ∉ path.names) (hnames : path.names ≠ [])
    {front : List String} (hfront : front <+: path.parent.names) :
    workspace.start path ++ front ≠ workspace.destination path := by
  obtain ⟨back, hback, happend⟩ := Path.names_eq_append hnames hfront
  rw [destination_eq_append hup, happend, Ne, List.append_cancel_left_eq,
    List.self_eq_append_right]
  exact hback

/-- The end of a path that does not lead up is not on the way to it. -/
theorem not_onTheWay_destination (hup : ".." ∉ path.names) (hnames : path.names ≠ []) :
    ¬ workspace.OnTheWay path.parent (workspace.destination path) := by
  rw [onTheWay_iff (Path.up_not_mem_parent hup)]
  rintro ⟨front, -, hfront, hat⟩
  exact ne_destination_of_front hup hnames hfront hat.symm

/-- The locations on the way to what a path that does not lead up reaches are directories. -/
theorem directory_of_onTheWay (hup : ".." ∉ path.names) (hnames : path.names ≠ [])
    (hreach : workspace.Reaches path) {location : Location}
    (hway : workspace.OnTheWay path.parent location) :
    workspace.tree.entry? location = some .directory := by
  obtain ⟨front, -, hfront, rfl⟩ := (onTheWay_iff (Path.up_not_mem_parent hup)).mp hway
  obtain ⟨back, hback, happend⟩ := Path.names_eq_append hnames hfront
  exact directory_of_reaches hup hreach happend hback

/-- On the way to the end of a path no more directories are missing than those that are not on the
way to another end, which is reached. -/
theorem missesAtMost_of_reaches {other : Path} {count : Nat} (hreach : workspace.Reaches other)
    (hupOther : ".." ∉ other.names) (hnames : other.names ≠ [])
    (hanchor : other.anchor = path.anchor) (hup : ".." ∉ path.parent.names)
    (hshared : path.parent.names.take (path.parent.names.length - count) <+: other.parent.names) :
    workspace.MissesAtMost count path.parent := by
  obtain ⟨back, hback, happend⟩ := Path.names_eq_append hnames hshared
  have hmade := directory_of_reaches hupOther hreach happend hback
  have hstart : workspace.start other = workspace.start path := by
    simp only [start, hanchor]
  rw [MissesAtMost, destination_eq_append (fun hmem => hup (List.mem_of_mem_take hmem))]
  rwa [hstart] at hmade

end Workspace

end MachineRbi
