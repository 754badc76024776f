import MachineRbi.Proofs.Files.Making

/-!
# Replacing what a file holds

Where a path leads to a file, the directory above is there, also if the path leads up on its way and
whatever else the tree holds. So nothing needs to be made (`makeDirectories_of_reaches`), and any
text can be written over what the file holds (`writeText_of_holds`).
-/

namespace MachineRbi.Workspace

variable {workspace : Workspace} {path : Path} {bytes : ByteArray}

/-- With more names behind them, names are walked from the same location. -/
theorem departure_append (workspace : Workspace) {anchor : Anchor} {front : List String}
    (hfront : front ≠ []) (back : List String) :
    workspace.departure ⟨anchor, front ++ back⟩ =
      ((workspace.departure ⟨anchor, front⟩).1,
        (workspace.departure ⟨anchor, front⟩).2 ++ back) := by
  cases front with
  | nil => exact (hfront rfl).elim
  | cons name rest =>
      cases anchor with
      | here =>
          by_cases hup : name = ".."
          · rw [hup]
            rfl
          · simp [departure, hup, start]
      | root => rfl
      | doubleRoot => rfl

/-- A path that can be walked can be spelled. -/
theorem Reaches.spelled (h : workspace.Reaches path) : path.Spelled := by
  obtain ⟨hnull, hlong, hpass⟩ := h
  refine ⟨hnull, hlong, fun name hmem => ?_⟩
  have hshort := hpass.short
  unfold departure at hshort
  split at hshort
  next rest hanchor hnames =>
    -- The walk leaves out the first name, which is short.
    rw [hnames] at hmem
    rcases List.mem_cons.mp hmem with rfl | hmem
    · decide
    · exact hshort name hmem
  next => exact hshort name hmem

/-- The directory above the end of a path that can be walked is found. -/
theorem Reaches.lookUp_parent (h : workspace.Reaches path) (hnames : path.names ≠ []) :
    workspace.lookUp path.parent =
      .ok (workspace.destination path.parent, some .directory) := by
  obtain ⟨anchor, names⟩ := path
  change names ≠ [] at hnames
  have hspelled : Path.Spelled ⟨anchor, names.dropLast⟩ :=
    h.spelled.of_prefix (List.dropLast_prefix names)
  change workspace.lookUp ⟨anchor, names.dropLast⟩ = _
  by_cases hsingle : names.dropLast = []
  · refine lookUp_eq_ok_iff.mpr ⟨⟨hspelled.hasNull, hspelled.isLongPath, ?_⟩, rfl, ?_⟩
    · rw [hsingle]
      cases anchor <;> trivial
    · exact (if_pos hsingle).symm
  · have hpass := h.2.2
    rw [← List.dropLast_concat_getLast hnames, departure_append workspace hsingle] at hpass
    obtain ⟨habove, hdirectory, -⟩ := FileTree.passes_append.mp hpass
    rw [foldl_departure] at hdirectory
    refine lookUp_eq_ok_iff.mpr ⟨⟨hspelled.hasNull, hspelled.isLongPath, habove⟩, rfl, ?_⟩
    exact (if_neg hsingle).trans hdirectory |>.symm

/-- There is nothing to make where a directory is found. -/
theorem makeWay_of_lookUp {anchor : Anchor} {reversed : List String} {goal : Location}
    (hlook : workspace.lookUp ⟨anchor, reversed.reverse⟩ = .ok (goal, some .directory))
    (missing : Nat) : makeWay anchor true workspace missing reversed = (workspace, .ok ()) := by
  obtain ⟨hexists, his⟩ := makeDirectory_of_lookUp hlook
  cases reversed with
  | nil =>
      rw [List.reverse_nil] at hexists his
      simp [makeWay, hexists, acceptDirectory, his, bind, Except.bind, pure, Except.pure]
  | cons name rest =>
      rw [List.reverse_cons] at hexists his
      simp [makeWay, hexists, acceptDirectory, his, bind, Except.bind, pure, Except.pure]

/-- On the way to the end of a path that can be walked there is nothing to make. -/
theorem makeDirectories_of_reaches [Stack] (h : workspace.Reaches path) (hnames : path.names ≠ []) :
    workspace.makeDirectories path.parent true = (workspace, .ok ()) := by
  have hlook : workspace.lookUp ⟨path.parent.anchor, path.parent.names.reverse.reverse⟩ =
      .ok (workspace.destination path.parent, some .directory) := by
    rw [List.reverse_reverse]
    exact h.lookUp_parent hnames
  exact makeWay_of_lookUp hlook Stack.missing

/-- A text can be written over what a file holds. -/
theorem writeText_of_holds (h : workspace.Holds path bytes) (text : String) :
    workspace.writeText path text =
      .ok (workspace.set (workspace.destination path) (.file text.toUTF8)) := by
  obtain ⟨hreach, hnames, hentry⟩ := h
  have hlook := lookUp_eq_ok_iff.mpr ⟨hreach, rfl, rfl⟩
  rw [if_neg hnames, hentry] at hlook
  simp [writeText, hlook, bind, Except.bind, pure, Except.pure]

end MachineRbi.Workspace
