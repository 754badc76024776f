import MachineRbi.Proofs.Generation.Target

/-!
# Files stay in the output directory

The path to the file of an accepted model goes on from the output directory through one name for
each constant of the id, so it is absolute only if the output directory is, and it leads to a place
below that directory. Double colons before the first constant make the path start at the root
instead: `staysInOutputDir_iff` says that only such an id leads out of the output directory.
-/

namespace MachineRbi.Job

open Underscore (isRooted stem)

variable {modelId : WideText}

/-- The file of a model stays in the output directory. -/
structure StaysInOutputDir (job : Job) (modelId : WideText) : Prop where
  /-- The path goes on from the output directory through one name for each constant of the id. No
  name leads up or starts anew, and the last one has the extension of interface files. -/
  follows : ∃ names : List String,
    job.targetPath modelId = (Path.ofText job.outputDir).join ⟨.here, names⟩ ∧
      names.length = (Rbi.constants modelId).length ∧
      (∀ name ∈ names, Path.IsPiece name.toList) ∧
      ∃ base, names.getLast? = some (base ++ ".rbi")
  /-- The path is absolute only if the output directory is. -/
  relative : (Path.ofText job.outputDir).anchor = .here →
    (job.targetPath modelId).anchor = .here
  /-- The path never leads outside the output directory. -/
  inside : ∀ workspace : Workspace,
    workspace.destination (Path.ofText job.outputDir) <+:
      workspace.destination (job.targetPath modelId)

/-- Where a path goes on from another one through names that do not lead up, it leads below it. -/
theorem destination_join {names : List String} (hup : ".." ∉ names) (workspace : Workspace)
    (path : Path) :
    workspace.destination (path.join ⟨.here, names⟩) = workspace.destination path ++ names := by
  show (path.names ++ names).foldl Location.step (workspace.start path) = _
  rw [List.foldl_append, Location.foldl_step hup]
  rfl

/-- The file stem of each constant of an accepted id names its step of the path to the file, which
starts at the root if the id starts with double colons and at the output directory otherwise. -/
theorem targetPath_eq_join (job : Job) (h : Rbi.isConstantPath modelId = true) :
    ∃ front last, Rbi.constants modelId = front ++ [last] ∧
      let names := front.map (fun part => underscore (String.ofList part)) ++
        [underscore (String.ofList last) ++ ".rbi"]
      (∀ name ∈ names, Path.IsPiece name.toList) ∧
        job.targetPath modelId =
          (if isRooted modelId then ⟨.root, []⟩ else Path.ofText job.outputDir).join
            ⟨.here, names⟩ := by
  obtain ⟨front, last, hconstants, hpieces, -, htarget⟩ := targetPath_of_constants job h
  obtain ⟨front', last', hconstants', hparts, -⟩ := Underscore.constants_of_isConstantPath h
  rw [← hconstants', hconstants] at hparts
  have hnames : front.map (fun part => underscore (String.ofList part)) ++
        [underscore (String.ofList last) ++ ".rbi"] =
      (front.map stem ++ [stem last ++ ".rbi".toList]).map String.ofList := by
    have hfront : ∀ part ∈ front,
        underscore (String.ofList part) = String.ofList (stem part) := fun part hmem =>
      Underscore.underscore_of_isPart (hparts part (List.mem_append_left _ hmem))
    have hlast := Underscore.underscore_of_isPart (hparts last (by simp))
    rw [List.map_congr_left hfront, hlast, List.map_append, List.map_map]
    simp [String.ofList_append, Function.comp_def]
  refine ⟨front, last, hconstants, ?_⟩
  dsimp only
  rw [hnames, htarget]
  refine ⟨?_, by cases isRooted modelId <;> rfl⟩
  intro name hmem
  obtain ⟨piece, hpiece, rfl⟩ := List.mem_map.mp hmem
  rw [String.toList_ofList]
  exact hpieces piece hpiece

/-- The path to the file of an accepted model goes through the file stems of its constants, and the
file stays in the output directory exactly if the id does not start with double colons or the output
directory is the root. -/
theorem staysInOutputDir_iff (job : Job) (h : Rbi.isConstantPath modelId = true) :
    (∃ front last, Rbi.constants modelId = front ++ [last] ∧
      job.targetPath modelId =
        (if isRooted modelId then ⟨.root, []⟩ else Path.ofText job.outputDir).join
          ⟨.here, front.map (fun part => underscore (String.ofList part)) ++
            [underscore (String.ofList last) ++ ".rbi"]⟩) ∧
    (job.StaysInOutputDir modelId ↔
      isRooted modelId = false ∨ Path.ofText job.outputDir = ⟨.root, []⟩) := by
  obtain ⟨front, last, hconstants, hpieces, htarget⟩ := targetPath_eq_join job h
  refine ⟨⟨front, last, hconstants, htarget⟩, ?_, ?_⟩
  · rintro ⟨⟨names, hfollows, hlength, -, -⟩, -, -⟩
    cases hrooted : isRooted modelId with
    | false => exact .inl rfl
    | true =>
        -- Both ways have one name for each constant, so the output directory has none.
        rw [htarget, if_pos hrooted] at hfollows
        obtain ⟨hanchor, hnames⟩ := Path.mk.inj hfollows
        have hcount := congrArg List.length hnames
        rw [hconstants] at hlength
        simp only [List.nil_append, List.length_append, List.length_map, List.length_cons,
          List.length_nil] at hcount hlength
        have hempty : (Path.ofText job.outputDir).names = [] :=
          List.eq_nil_of_length_eq_zero (by omega)
        have hroot : (Path.ofText job.outputDir).anchor = .root := hanchor.symm
        refine .inr ?_
        rw [← hroot, ← hempty]
  · intro hin
    have hbase : (if isRooted modelId then ⟨.root, []⟩ else Path.ofText job.outputDir) =
        Path.ofText job.outputDir := by
      rcases hin with hplain | hroot
      · rw [hplain]
        rfl
      · rw [hroot, ite_self]
    rw [hbase] at htarget
    have hup : ".." ∉ front.map (fun part => underscore (String.ofList part)) ++
        [underscore (String.ofList last) ++ ".rbi"] := fun hmem => (hpieces _ hmem).notUp rfl
    refine ⟨⟨_, htarget, by simp [hconstants], hpieces, _, List.getLast?_concat⟩, ?_, ?_⟩
    · intro hhere
      rw [htarget]
      exact hhere
    · intro workspace
      rw [htarget, destination_join hup]
      exact List.prefix_append _ _

/-- The file of a model in a scope stays below an output directory that has to be brought into
normal form. -/
theorem staysInOutputDir_iff_blogPost :
    let job : Job := { emitter := {}, outputDir := "sorbet//./rbi/", excluded := [] }
    Rbi.isConstantPath "Admin::BlogPost" = true ∧
      (job.targetPath "Admin::BlogPost").text = "sorbet/rbi/admin/blog_post.rbi" ∧
      job.StaysInOutputDir "Admin::BlogPost" := by
  intro job
  have hpath : Rbi.isConstantPath "Admin::BlogPost" = true := by decide
  exact ⟨hpath, by decide +kernel,
    (staysInOutputDir_iff job hpath).2.mpr (.inl (by decide))⟩

/-- A class with double colons before its name is accepted, and its file stands at the root. -/
theorem not_staysInOutputDir_post :
    let job : Job := { emitter := {}, outputDir := "rbi", excluded := [] }
    Rbi.ClassScope.new "::Post" = .ok ⟨"::Post", []⟩ ∧
      (job.targetPath "::Post").text = "/post.rbi" ∧ ¬ job.StaysInOutputDir "::Post" := by
  intro job
  have hpath : Rbi.isConstantPath "::Post" = true := by decide
  refine ⟨?_, by decide +kernel, fun hstays => ?_⟩
  · rw [Rbi.ClassScope.new, if_pos hpath, WideText.shown_ofString]
  · have hanchor := hstays.relative (by decide)
    revert hanchor
    decide +kernel

end MachineRbi.Job
