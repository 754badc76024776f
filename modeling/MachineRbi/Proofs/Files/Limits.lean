import MachineRbi.Proofs.Files.Open

/-!
# Paths beyond the limits

A name can be too long for a file tree, and so can a path. No such path is located: looking for it
fails for its length, or for a directory that is missing before that is noticed (`locate_of_long`).
The directories along it are not made either, for its length or because too many of them are missing
(`makeDirectories_of_long`).
-/

namespace MachineRbi

/-- The text of the path and its names are short enough for a file tree. -/
structure Path.WithinLimits (path : Path) : Prop where
  isLongPath : Workspace.isLongPath path = false
  short : ∀ name ∈ path.names, isLongName name = false

/-- A path within the limits can be spelled if it holds no null character. -/
theorem Path.spelled_iff {path : Path} :
    path.Spelled ↔ Workspace.hasNull path = false ∧ path.WithinLimits :=
  ⟨fun h => ⟨h.hasNull, h.isLongPath, h.short⟩,
    fun ⟨hnull, hwithin⟩ => ⟨hnull, hwithin.isLongPath, hwithin.short⟩⟩

/-- A path without null characters has none at the start of it either. -/
theorem Workspace.hasNull_of_front {anchor : Anchor} {names front : List String}
    (h : hasNull ⟨anchor, names⟩ = false) (hfront : front <+: names) :
    hasNull ⟨anchor, front⟩ = false := by
  simp only [hasNull, List.any_eq_false] at h ⊢
  exact fun name hmem => h name (hfront.subset hmem)

/-- A walk along a name that is too long ends before it if a directory is missing, and else at that
name. -/
theorem FileTree.walk_of_long {tree : FileTree} {location : Location} {names : List String}
    (hup : ".." ∉ names) (hlong : ∃ name ∈ names, isLongName name = true)
    (hfiles : ∀ front, front <+: names.dropLast → ∀ bytes,
      tree.entry? (location ++ front) ≠ some (.file bytes)) :
    tree.walk location names = .error .tooLong ∨
      tree.walk location names = .error .notFound ∧
        ∃ front, front <+: names.dropLast ∧ tree.entry? (location ++ front) = none := by
  induction names generalizing location with
  | nil =>
      obtain ⟨name, hmem, -⟩ := hlong
      cases hmem
  | cons name rest ih =>
      simp only [List.mem_cons, not_or] at hup
      rw [walk_cons]
      cases hentry : tree.entry? location with
      | none => exact .inr ⟨rfl, [], List.nil_prefix, by simpa using hentry⟩
      | some entry =>
          cases entry with
          | file bytes => exact (hfiles [] List.nil_prefix bytes (by simpa using hentry)).elim
          | directory =>
              cases hname : isLongName name with
              | true => exact .inl rfl
              | false =>
                  have hstep : Location.step location name = location ++ [name] :=
                    if_neg (Ne.symm hup.1)
                  have hrest : ∃ other ∈ rest, isLongName other = true := by
                    obtain ⟨other, hmem, hother⟩ := hlong
                    rcases List.mem_cons.mp hmem with rfl | hmem
                    · rw [hname] at hother
                      cases hother
                    · exact ⟨other, hmem, hother⟩
                  have hsome : rest ≠ [] := by
                    obtain ⟨other, hmem, -⟩ := hrest
                    exact List.ne_nil_of_mem hmem
                  have hdropLast : (name :: rest).dropLast = name :: rest.dropLast :=
                    List.dropLast_cons_of_ne_nil hsome
                  rw [hdropLast] at hfiles ⊢
                  simp only [Bool.false_eq_true, if_false, hstep]
                  have hbehind := @ih (location ++ [name]) hup.2 hrest
                    fun front hfront bytes => by
                      rw [← List.append_cons]
                      exact hfiles _ (List.cons_prefix_cons.mpr ⟨rfl, hfront⟩) bytes
                  refine hbehind.imp id (And.imp id ?_)
                  rintro ⟨front, hfront, hnone⟩
                  refine ⟨name :: front, List.cons_prefix_cons.mpr ⟨rfl, hfront⟩, ?_⟩
                  rwa [List.append_cons]

namespace Workspace

variable {workspace : Workspace} {path : Path}

/-- No path beyond the limits is located: it is too long, or a directory is missing on its way. -/
theorem locate_of_long (hup : ".." ∉ path.names) (hnull : hasNull path = false)
    (hlong : ¬ path.WithinLimits) (hclear : workspace.Clear path.parent) :
    workspace.locate path = .error .tooLong ∨
      workspace.locate path = .error .notFound ∧ ∃ front, front <+: path.parent.names ∧
        workspace.tree.entry? (workspace.start path ++ front) = none := by
  rw [locate_eq_walk, hnull, departure_eq hup]
  cases hsize : isLongPath path with
  | true => exact .inl rfl
  | false =>
      have hnot : ¬ ∀ name ∈ path.names, isLongName name = false := fun hshort =>
        hlong ⟨hsize, hshort⟩
      exact FileTree.walk_of_long hup (by simpa using hnot) hclear.way

/-- A path beyond the limits that goes on from a directory is too long. -/
theorem locate_eq_tooLong (hup : ".." ∉ path.names) (hnull : hasNull path = false)
    (hlong : ¬ path.WithinLimits) (hclear : workspace.Clear path.parent)
    (hclosed : workspace.tree.Closed)
    (habove : workspace.tree.entry? (workspace.start path ++ path.parent.names) =
      some .directory) : workspace.locate path = .error .tooLong := by
  refine (locate_of_long hup hnull hlong hclear).resolve_right ?_
  rintro ⟨-, front, hfront, hnone⟩
  rw [hclosed.directory_of_prefix hfront habove] at hnone
  cases hnone

/-- What stands at the end of a path that is too long cannot be told. -/
theorem find?_of_tooLong (h : workspace.locate path = .error .tooLong) :
    workspace.find? path = .error .tooLong := by
  simp [find?, entryAt, lookUp, h, bind, Except.bind]

/-- At the end of a path on whose way a directory is missing nothing stands. -/
theorem find?_of_notFound (h : workspace.locate path = .error .notFound) :
    workspace.find? path = .ok none := by
  simp [find?, entryAt, lookUp, h, bind, Except.bind]

/-- A directory is not accepted at the end of a path that is too long. -/
theorem acceptDirectory_of_tooLong (h : workspace.locate path = .error .tooLong) (existOk : Bool)
    (fault : FileFault) : workspace.acceptDirectory path existOk fault = .error .tooLong := by
  simp [acceptDirectory, isDirectory, find?_of_tooLong h, bind, Except.bind, Except.map]

section Step

variable {anchor : Anchor} {name : String} {rest : List String} {missing : Nat}
  (hmissed : workspace.makeDirectory ⟨anchor, rest.reverse ++ [name]⟩ = .error .notFound)
  (hmissing : ¬ missing ≤ 1)
include hmissed hmissing

/-- What stops the making of the way to a directory above stops that of the way on from it. -/
theorem makeWay_fails_above {fault : FileFault}
    (hfails : (makeWay anchor true workspace (missing - 1) rest).2 = .error fault) :
    (makeWay anchor true workspace missing (name :: rest)).2 = .error fault := by
  cases habove : makeWay anchor true workspace (missing - 1) rest with
  | mk middle result =>
      rw [habove] at hfails
      simp only at hfails
      simp [makeWay, hmissed, hmissing, habove, hfails]

/-- If a path is still too long when the directory above it has been made, then it ends there. -/
theorem makeWay_tooLong_above {middle : Workspace}
    (habove : makeWay anchor true workspace (missing - 1) rest = (middle, .ok ()))
    (hlocate : middle.locate ⟨anchor, rest.reverse ++ [name]⟩ = .error .tooLong) :
    (makeWay anchor true workspace missing (name :: rest)).2 = .error .tooLong := by
  simp [makeWay, hmissed, hmissing, habove, makeDirectory_of_locate hlocate,
    acceptDirectory_of_tooLong hlocate]

end Step

/-- The directories on a clear way beyond the limits are not made: it is too long, or more of them
are missing than can be made at once. -/
theorem makeWay_of_long {anchor : Anchor} {reversed : List String} {missing : Nat}
    (hmissing : missing ≠ 0) (hclosed : workspace.tree.Closed) (hup : ".." ∉ reversed.reverse)
    (hnull : hasNull ⟨anchor, reversed.reverse⟩ = false)
    (hlong : ¬ Path.WithinLimits ⟨anchor, reversed.reverse⟩)
    (hclear : workspace.Clear ⟨anchor, reversed.reverse⟩) :
    (makeWay anchor true workspace missing reversed).2 = .error .tooLong ∨
      (makeWay anchor true workspace missing reversed).2 = .error .tooDeep ∧
        ¬ workspace.MissesAtMost missing ⟨anchor, reversed.reverse⟩ := by
  induction reversed generalizing missing with
  | nil =>
      refine (hlong ⟨?_, nofun⟩).elim
      cases anchor <;> decide
  | cons name rest ih =>
      rw [List.reverse_cons] at hup hnull hlong hclear ⊢
      have hupAbove : ".." ∉ rest.reverse := fun hmem => hup (List.mem_append_left _ hmem)
      have hinit : rest.reverse <+: rest.reverse ++ [name] := List.prefix_append _ _
      have hnullAbove : hasNull ⟨anchor, rest.reverse⟩ = false := hasNull_of_front hnull hinit
      have hparent : Path.parent ⟨anchor, rest.reverse ++ [name]⟩ = ⟨anchor, rest.reverse⟩ := by
        simp [Path.parent]
      have hclearAbove : workspace.Clear ⟨anchor, rest.reverse⟩ :=
        ⟨hclear.start, fun front hfront => hclear.way front (hfront.trans hinit)⟩
      rw [missesAtMost_concat hmissing]
      rcases locate_of_long hup hnull hlong (hparent ▸ hclearAbove) with
        hlocate | ⟨hlocate, front, hfront, hnone⟩
      · refine .inl ?_
        simp [makeWay, makeDirectory_of_locate hlocate, acceptDirectory_of_tooLong hlocate]
      · have hmissed := makeDirectory_of_locate hlocate
        by_cases hlast : missing ≤ 1
        · -- One more directory is missing, and none can be made any more.
          refine .inr ⟨by simp [makeWay, hmissed, hlast], fun hfew => ?_⟩
          rw [show missing - 1 = 0 by omega, MissesAtMost, Nat.sub_zero, List.take_length,
            destination_eq_append hupAbove] at hfew
          rw [hparent] at hfront
          have hdirectory := hclosed.directory_of_prefix hfront hfew
          exact absurd (hnone.symm.trans hdirectory) (by simp)
        · have hfewer : missing - 1 ≠ 0 := by omega
          by_cases hwithin : Path.WithinLimits ⟨anchor, rest.reverse⟩
          · have hspelled : Path.Spelled ⟨anchor, rest.reverse⟩ :=
              Path.spelled_iff.mpr ⟨hnullAbove, hwithin⟩
            rcases makeWay_cases hfewer hclosed hupAbove hspelled hclearAbove with
              ⟨⟨middle, hmiddle, hentry⟩, -⟩ | ⟨hdeep, hmany⟩
            · -- The directory above is there now, so the last name is too long for it.
              have hframe := makeWay_frame anchor true workspace (missing - 1) rest
              have hclosedMiddle := makeWay_closed anchor hupAbove true (missing - 1) hclosed
              rw [hmiddle] at hframe hclosedMiddle
              have hclearMiddle := hclearAbove.frame hframe fun _ _ => id
              rw [destination_eq_append hupAbove, ← hframe.start_eq] at hentry
              have htooLong := locate_eq_tooLong hup hnull hlong (hparent ▸ hclearMiddle)
                hclosedMiddle (hparent ▸ hentry)
              exact .inl (makeWay_tooLong_above hmissed hlast hmiddle htooLong)
            · exact .inr ⟨makeWay_fails_above hmissed hlast (by rw [hdeep]), hmany⟩
          · rcases ih hfewer hupAbove hnullAbove hwithin hclearAbove with
              hfails | ⟨hdeep, hmany⟩
            · exact .inl (makeWay_fails_above hmissed hlast hfails)
            · exact .inr ⟨makeWay_fails_above hmissed hlast hdeep, hmany⟩

/-- The directories along a clear path beyond the limits are not made: it is too long, or more of
them are missing than can be made at once. -/
theorem makeDirectories_of_long [Stack] (hclosed : workspace.tree.Closed) (hup : ".." ∉ path.names)
    (hnull : hasNull path = false) (hlong : ¬ path.WithinLimits) (hclear : workspace.Clear path) :
    (workspace.makeDirectories path true).2 = .error .tooLong ∨
      (workspace.makeDirectories path true).2 = .error .tooDeep ∧
        ¬ workspace.MissesAtMost Stack.missing path := by
  obtain ⟨anchor, names⟩ := path
  obtain ⟨reversed, rfl⟩ : ∃ reversed : List String, names = reversed.reverse :=
    ⟨_, names.reverse_reverse.symm⟩
  unfold makeDirectories
  dsimp only
  rw [List.reverse_reverse]
  exact makeWay_of_long (Nat.ne_of_gt Stack.missing_pos) hclosed hup hnull hlong hclear

end Workspace

end MachineRbi
