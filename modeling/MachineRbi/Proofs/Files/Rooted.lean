import MachineRbi.Proofs.Files.Limits

/-!
# Locations as paths from the root

A location is looked at by the path from the root through its names. In a closed tree such a path
finds what stands at the location (`find?_root`), unless it is beyond the limits: from a directory
on, a path that is too long fails (`find?_root_of_long`). The location that a path says can be
looked at in this way if the working directory can (`isProper_resolve`).
-/

namespace MachineRbi

/-- No name of the location leads up or holds a null character. -/
def Location.IsProper (location : Location) : Prop :=
  ∀ name ∈ location, name ≠ ".." ∧ '\x00' ∉ name.toList

namespace Location

variable {location front : Location}

/-- A proper location does not lead up. -/
theorem IsProper.up_not_mem (h : IsProper location) : ".." ∉ location :=
  fun hmem => (h ".." hmem).1 rfl

/-- The path through the names of a proper location holds no null character. -/
theorem IsProper.hasNull (h : IsProper location) (anchor : Anchor) :
    Workspace.hasNull ⟨anchor, location⟩ = false := by
  simp only [Workspace.hasNull, List.any_eq_false]
  exact fun name hmem hnull => (h name hmem).2 (List.contains_iff_mem.mp hnull)

/-- A location above a proper one is proper. -/
theorem IsProper.of_prefix (h : IsProper location) (hfront : front <+: location) :
    IsProper front :=
  fun name hmem => h name (hfront.subset hmem)

/-- A proper location stays proper with a proper name behind it. -/
theorem IsProper.concat (h : IsProper location) {name : String} (hup : name ≠ "..")
    (hnull : '\x00' ∉ name.toList) : IsProper (location ++ [name]) := by
  intro other hmem
  rcases List.mem_append.mp hmem with hmem | hmem
  · exact h other hmem
  · obtain rfl := List.mem_singleton.mp hmem
    exact ⟨hup, hnull⟩

/-- Names without null characters lead from a proper location to a proper one. -/
theorem IsProper.foldl_step (h : IsProper location) {names : List String}
    (hnames : ∀ name ∈ names, '\x00' ∉ name.toList) :
    IsProper (names.foldl Location.step location) := by
  induction names generalizing location with
  | nil => exact h
  | cons name rest ih =>
      rw [List.foldl_cons]
      refine ih ?_ fun other hmem => hnames other (List.mem_cons_of_mem _ hmem)
      unfold Location.step
      split
      next => exact h.of_prefix (List.dropLast_prefix _)
      next hup => exact h.concat hup (hnames name List.mem_cons_self)

end Location

/-- Names with slashes between them take a byte less than with a slash behind each. -/
theorem Path.size_joinNames_add_one {names : List String} (h : names ≠ []) :
    (joinNames names).utf8ByteSize + 1 = slashedSize names := by
  unfold joinNames
  induction names with
  | nil => exact (h rfl).elim
  | cons name rest ih =>
      by_cases hrest : rest = []
      · simp [hrest, slashedSize]
      · have hslash : "/".utf8ByteSize = 1 := rfl
        rw [← List.singleton_append, String.intercalate_append_of_ne_nil (by simp) hrest,
          String.intercalate_singleton, String.utf8ByteSize_append, String.utf8ByteSize_append,
          hslash, List.singleton_append, slashedSize, ← ih hrest]
        omega

/-- From the root, a path is short enough if its names with a slash behind each are. -/
theorem Workspace.isLongPath_root {names : List String} (h : names ≠ []) :
    isLongPath ⟨.root, names⟩ = decide (4095 < Path.slashedSize names) := by
  have hslash : "/".utf8ByteSize = 1 := rfl
  simp [isLongPath, Path.text, Path.anchorText, ← Path.size_joinNames_add_one h, hslash,
    Nat.add_comm]

/-- A file of the same name further up is within the limits too. -/
theorem Path.WithinLimits.of_prefix {location front : Location} {name : String}
    (h : WithinLimits ⟨.root, location ++ [name]⟩) (hfront : front <+: location) :
    WithinLimits ⟨.root, front ++ [name]⟩ := by
  obtain ⟨back, rfl⟩ := hfront
  constructor
  · have hlong := h.isLongPath
    rw [Workspace.isLongPath_root (by simp), decide_eq_false_iff_not] at hlong ⊢
    simp only [slashedSize_append] at hlong ⊢
    omega
  · intro other hmem
    refine h.short other ?_
    rcases List.mem_append.mp hmem with hmem | hmem
    · exact List.mem_append_left _ (List.mem_append_left _ hmem)
    · exact List.mem_append_right _ hmem

/-- A walk over names that are short enough does not fail for their length. -/
theorem FileTree.walk_ne_tooLong {tree : FileTree} {location : Location} {names : List String}
    (hshort : ∀ name ∈ names, isLongName name = false) :
    tree.walk location names ≠ .error .tooLong := by
  induction names generalizing location with
  | nil => exact fun h => nomatch h
  | cons name rest ih =>
      rw [walk_cons]
      cases tree.entry? location with
      | none => exact fun h => nomatch h
      | some entry =>
          cases entry with
          | file bytes => exact fun h => nomatch h
          | directory =>
              simp only [hshort name List.mem_cons_self, Bool.false_eq_true, if_false]
              exact ih fun other hmem => hshort other (List.mem_cons_of_mem _ hmem)

namespace Workspace

variable {workspace : Workspace} {path : Path} {location : Location}

/-- Nothing is found where nothing stands, unless the path is too long. -/
theorem find?_of_none (hlong : isLongPath path = false)
    (hshort : ∀ name ∈ path.names, isLongName name = false) (hup : ".." ∉ path.names)
    (hnames : path.names ≠ [])
    (hnone : workspace.tree.entry? (workspace.destination path) = none) :
    workspace.find? path = .ok none := by
  cases hlocate : workspace.locate path with
  | ok goal =>
      obtain ⟨hreach, rfl⟩ := locate_eq_ok_iff.mp hlocate
      have hlook := lookUp_eq_ok_iff.mpr ⟨hreach, rfl, rfl⟩
      rw [if_neg hnames, hnone] at hlook
      simp [find?, entryAt, hlook, bind, Except.bind, throw, throwThe, MonadExceptOf.throw]
  | error fault =>
      have hfault : fault ≠ .tooLong := by
        rintro rfl
        rw [locate_eq_walk, hlong, departure_eq hup] at hlocate
        cases hnull : hasNull path with
        | true =>
            rw [hnull] at hlocate
            cases hlocate
        | false =>
            rw [hnull] at hlocate
            exact FileTree.walk_ne_tooLong hshort hlocate
      cases fault <;>
        first
        | exact (hfault rfl).elim
        | simp [find?, entryAt, lookUp, hlocate, bind, Except.bind]

/-- In a closed tree the path through the names of a location finds what stands there. -/
theorem find?_root (hclosed : workspace.tree.Closed) (hproper : location.IsProper)
    (hwithin : Path.WithinLimits ⟨.root, location⟩) :
    workspace.find? ⟨.root, location⟩ = .ok (workspace.tree.entry? location) := by
  have hup := hproper.up_not_mem
  have hgoal : workspace.destination ⟨.root, location⟩ = location :=
    (destination_eq_append hup workspace).trans (List.nil_append _)
  cases hentry : workspace.tree.entry? location with
  | none =>
      have hnames : location ≠ [] := by
        rintro rfl
        cases hentry
      exact find?_of_none hwithin.isLongPath hwithin.short hup hnames (hgoal.symm ▸ hentry)
  | some entry =>
      have hpass : workspace.tree.Passes [] location :=
        hclosed.passes hup hwithin.short (by simp [hentry])
      have hreach : workspace.Reaches ⟨.root, location⟩ := by
        refine ⟨hproper.hasNull .root, hwithin.isLongPath, ?_⟩
        rw [departure_eq hup]
        exact hpass
      have hlook := lookUp_eq_ok_iff.mpr ⟨hreach, rfl, rfl⟩
      have hfound : (if location = [] then some Entry.directory
          else workspace.tree.entry? location) = some entry := by
        split
        next hroot => rw [← hentry, hroot]; rfl
        next => exact hentry
      rw [hgoal, hfound] at hlook
      simp [find?, entryAt, hlook, bind, Except.bind, pure, Except.pure]

/-- From a directory of a closed tree, looking beyond the limits fails. -/
theorem find?_root_of_long (hclosed : workspace.tree.Closed) {name : String}
    (hproper : Location.IsProper (location ++ [name]))
    (hlong : ¬ Path.WithinLimits ⟨.root, location ++ [name]⟩)
    (hdirectory : workspace.tree.entry? location = some .directory) :
    workspace.find? ⟨.root, location ++ [name]⟩ = .error .tooLong := by
  have hparent : Path.parent ⟨.root, location ++ [name]⟩ = ⟨.root, location⟩ := by
    simp [Path.parent]
  have hstart : ∀ names, workspace.start ⟨.root, names⟩ = [] := fun _ => rfl
  refine find?_of_tooLong (locate_eq_tooLong hproper.up_not_mem (hproper.hasNull .root) hlong ?_
    hclosed ?_)
  · rw [hparent]
    refine ⟨rfl, fun front hfront bytes hfile => ?_⟩
    rw [hstart, List.nil_append] at hfile
    have habove : workspace.tree.entry? ([] ++ front) = some .directory :=
      hclosed.directory_of_prefix hfront hdirectory
    rw [List.nil_append, hfile] at habove
    cases habove
  · rw [hparent]
    exact hdirectory

/-- The path through the names of a proper location says it. -/
theorem resolve_root (hproper : location.IsProper) :
    workspace.resolve ⟨.root, location⟩ = .ok location := by
  unfold resolve
  rw [hproper.hasNull .root, Location.foldl_step hproper.up_not_mem]
  rfl

/-- In a closed workspace the path without names says the working directory. -/
theorem Closed.resolve_here (h : workspace.Closed) :
    workspace.resolve Path.here = .ok workspace.here := by
  simp [resolve, hasNull, Path.here, h.here, start]

/-- From a proper working directory every path says a proper location. -/
theorem isProper_resolve (hhere : Location.IsProper workspace.here)
    (h : workspace.resolve path = .ok location) : location.IsProper := by
  unfold resolve at h
  cases hnull : hasNull path with
  | true =>
      rw [hnull] at h
      cases h
  | false =>
      rw [hnull] at h
      simp only [Bool.false_eq_true, if_false] at h
      split at h
      next => cases h
      next =>
        cases h
        refine Location.IsProper.foldl_step ?_ ?_
        · unfold start
          split
          · exact hhere
          · exact fun _ hmem => nomatch hmem
        · simp only [hasNull, List.any_eq_false] at hnull
          exact fun name hmem hchar => hnull name hmem (List.contains_iff_mem.mpr hchar)

end Workspace

end MachineRbi
