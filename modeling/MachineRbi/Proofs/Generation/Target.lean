import MachineRbi.Generation
import MachineRbi.Proofs.Files.Walk
import MachineRbi.Proofs.Underscore.Stem

/-!
# The files of accepted models

The path to the file of an accepted model goes on from the output directory through one name for
each part of the id, or starts at the root if the id starts with double colons. None of these names
leads up, so two models share a file exactly if their ids have the same stem
(`destination_targetPath_eq_iff`).
-/

namespace MachineRbi

namespace Job

variable {job : Job} {modelId other : WideText}

/-- The path to the file of an accepted model adds the stems of its constants, the last with the
extension, to the output directory or to the root. -/
theorem targetPath_of_constants (job : Job) (h : Rbi.isConstantPath modelId = true) :
    ∃ front last, Rbi.constants modelId = front ++ [last] ∧
      let pieces := front.map Underscore.stem ++ [Underscore.stem last ++ ".rbi".toList]
      (∀ piece ∈ pieces, Path.IsPiece piece) ∧
        (underscore modelId.shown ++ ".rbi").toList =
          (if Underscore.isRooted modelId then ['/'] else []) ++ ['/'].intercalate pieces ∧
        job.targetPath modelId =
          if Underscore.isRooted modelId then ⟨.root, pieces.map String.ofList⟩
          else ⟨(Path.ofText job.outputDir).anchor,
            (Path.ofText job.outputDir).names ++ pieces.map String.ofList⟩ := by
  obtain ⟨front, last, hconstants, hpieces, hname⟩ := Underscore.pieces_of_isConstantPath h
  refine ⟨front, last, hconstants, hpieces, hname, ?_⟩
  rw [targetPath, Path.ofTexts_pair, Path.ofText.eq_1 (underscore modelId.shown ++ ".rbi"), hname]
  cases Underscore.isRooted modelId with
  | true =>
      rw [if_pos rfl, if_pos rfl, List.cons_append, List.nil_append,
        Path.ofChars_slash_intercalate hpieces]
      rfl
  | false =>
      rw [if_neg Bool.false_ne_true, if_neg Bool.false_ne_true, List.nil_append,
        Path.ofChars_intercalate hpieces]
      rfl

/-- The path to the file of an accepted model adds names that do not lead up to the output directory
or to the root. -/
theorem targetPath_of_isConstantPath (job : Job) (h : Rbi.isConstantPath modelId = true) :
    ∃ pieces, (∀ piece ∈ pieces, Path.IsPiece piece) ∧ pieces ≠ [] ∧
      (underscore modelId.shown ++ ".rbi").toList =
        (if Underscore.isRooted modelId then ['/'] else []) ++ ['/'].intercalate pieces ∧
      job.targetPath modelId =
        if Underscore.isRooted modelId then ⟨.root, pieces.map String.ofList⟩
        else ⟨(Path.ofText job.outputDir).anchor,
          (Path.ofText job.outputDir).names ++ pieces.map String.ofList⟩ := by
  obtain ⟨front, last, -, hpieces, hname, htarget⟩ := targetPath_of_constants job h
  exact ⟨_, hpieces, by simp, hname, htarget⟩

/-- The path to the file of an accepted model leads up only if the output directory does. -/
theorem up_not_mem_targetPath (h : Rbi.isConstantPath modelId = true)
    (houtput : ".." ∉ (Path.ofText job.outputDir).names) :
    ".." ∉ (job.targetPath modelId).names ∧ (job.targetPath modelId).names ≠ [] := by
  obtain ⟨pieces, hpieces, hnonempty, -, htarget⟩ := targetPath_of_isConstantPath job h
  have hup := Path.up_not_mem_map hpieces
  rw [htarget]
  cases Underscore.isRooted modelId with
  | true => exact ⟨hup, by simpa using hnonempty⟩
  | false => exact ⟨by simp [houtput, hup], by simp [hnonempty]⟩

/-- What a text does not hold is in no name of the path that it says. -/
theorem not_mem_ofText {c : Char} {text : String} (h : c ∉ text.toList) :
    ∀ name ∈ (Path.ofText text).names, c ∉ name.toList := by
  intro name hname hmem
  obtain ⟨piece, hpiece, rfl⟩ := List.mem_map.mp hname
  have hsplit := (List.mem_filter.mp hpiece).1
  rw [Path.splitSlashes_eq_splitOn] at hsplit
  rw [String.toList_ofList] at hmem
  have hjoined : ['/'].intercalate (text.toList.splitOn '/') = text.toList :=
    List.intercalate_splitOn '/'
  exact h (hjoined ▸ Rbi.mem_intercalate_of_mem hsplit hmem)

/-- The path to the file of an accepted model holds no null character unless the output directory
does. -/
theorem hasNull_targetPath (h : Rbi.isConstantPath modelId = true)
    (hnull : '\x00' ∉ job.outputDir.toList) :
    Workspace.hasNull (job.targetPath modelId) = false := by
  obtain ⟨front, last, hconstants, -, -, htarget⟩ := targetPath_of_constants job h
  obtain ⟨parts, base, hparts, hall, -⟩ := Underscore.constants_of_isConstantPath h
  rw [← hparts, hconstants] at hall
  have hstem : ∀ part ∈ front ++ [last], '\x00' ∉ Underscore.stem part := fun part hpart hmem =>
    absurd ((Underscore.stem_of_isPart (hall part hpart)).2 _ hmem) (by decide)
  have hfile : '\x00' ∉ Underscore.stem last ++ ".rbi".toList := by
    rw [List.mem_append, not_or]
    exact ⟨hstem last (by simp), by decide⟩
  have hnames : ∀ name ∈ (front.map Underscore.stem ++
      [Underscore.stem last ++ ".rbi".toList]).map String.ofList, '\x00' ∉ name.toList := by
    intro name hname
    obtain ⟨piece, hpiece, rfl⟩ := List.mem_map.mp hname
    rw [String.toList_ofList]
    rcases List.mem_append.mp hpiece with hpiece | hpiece
    · obtain ⟨part, hpart, rfl⟩ := List.mem_map.mp hpiece
      exact hstem part (List.mem_append_left _ hpart)
    · rwa [List.mem_singleton.mp hpiece]
  simp only [Workspace.hasNull, List.any_eq_false, List.contains_iff_mem]
  rw [htarget]
  cases Underscore.isRooted modelId with
  | true => exact hnames
  | false =>
      intro name hname
      rcases List.mem_append.mp hname with hname | hname
      · exact not_mem_ofText hnull name hname
      · exact hnames name hname

/-- Two accepted models, both with double colons before their ids or both without, have the same
file exactly if their ids have the same stem. -/
theorem destination_targetPath_eq_iff {workspace : Workspace}
    (h : Rbi.isConstantPath modelId = true) (hother : Rbi.isConstantPath other = true)
    (hrooted : Underscore.isRooted modelId = Underscore.isRooted other) :
    workspace.destination (job.targetPath modelId) =
        workspace.destination (job.targetPath other) ↔
      underscore modelId.shown = underscore other.shown := by
  constructor
  · intro hsame
    obtain ⟨pieces, hpieces, -, hname, htarget⟩ := targetPath_of_isConstantPath job h
    obtain ⟨others, hothers, -, hotherName, hotherTarget⟩ :=
      targetPath_of_isConstantPath job hother
    have hup := Path.up_not_mem_map hpieces
    have hotherUp := Path.up_not_mem_map hothers
    rw [htarget, hotherTarget, ← hrooted] at hsame
    -- Names that do not lead up are only added, so the same end means the same names.
    have hmap : pieces.map String.ofList = others.map String.ofList := by
      cases hcase : Underscore.isRooted modelId with
      | true =>
          simpa [hcase, Workspace.destination, Workspace.start, Location.foldl_step hup,
            Location.foldl_step hotherUp] using hsame
      | false =>
          simpa [hcase, Workspace.destination, Workspace.start, Location.foldl_step hup,
            Location.foldl_step hotherUp] using hsame
    have heq : pieces = others :=
      (List.map_inj_right fun _ _ => String.ofList_inj.mp).mp hmap
    have hnames : (underscore modelId.shown ++ ".rbi").toList =
        (underscore other.shown ++ ".rbi").toList := by
      rw [hname, hotherName, heq, hrooted]
    rw [String.toList_append, String.toList_append] at hnames
    exact String.toList_inj.mp (List.append_cancel_right hnames)
  · intro hstem
    rw [targetPath, targetPath, hstem]

end Job

end MachineRbi
