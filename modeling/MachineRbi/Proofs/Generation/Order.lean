import MachineRbi.Proofs.Generation.Commuting
import MachineRbi.Proofs.Generation.Composition
import MachineRbi.Proofs.Generation.OneFile
import MachineRbi.Proofs.Generation.Target
import MachineRbi.Proofs.Manifest.Reordering

/-!
# Models in another order

A run comes to the models in the order in which the manifest lists them. If the files of different
models are apart, it does the same in every order (`run_reordered`), unless too many directories
are missing on the way to a file. These can be fewer when the run has come to another model before,
so a run can complete in one order and stop in another (`not_run_reordered_longDir`).
-/

namespace MachineRbi.Job

open Underscore (isRooted)

variable {job : Job} {manifest : Manifest} {workspace : Workspace} {modelId other : WideText}
  {modelIds : List WideText} {outcomes : List Outcome} {report : Report}
  {registry shuffled : Registry} {a b : Manifest} {first second : WideText}

/-! ## Files apart -/

/-- The stem of a constant has no point in it, so it is not the name of a file. -/
theorem stem_ne_fileName {part last : List Char} (h : Underscore.IsPart part) :
    Underscore.stem part ≠ last ++ ".rbi".toList := by
  intro heq
  have hpoint : '.' ∈ Underscore.stem part := by
    rw [heq]
    simp
  exact absurd ((Underscore.stem_of_isPart h).2 '.' hpoint) (by decide)

/-- The path to the file of an accepted model does not go on from that to the file of another one,
unless they are the same. -/
theorem not_prefix_targetPath (h : Rbi.isConstantPath modelId = true)
    (hother : Rbi.isConstantPath other = true) (hrooted : isRooted modelId = false)
    (hrootedOther : isRooted other = false)
    (hne : job.targetPath modelId ≠ job.targetPath other) :
    (job.targetPath modelId).anchor = (job.targetPath other).anchor ∧
      ¬ (job.targetPath modelId).names <+: (job.targetPath other).names := by
  obtain ⟨front, last, -, -, -, htarget⟩ := targetPath_of_constants job h
  obtain ⟨front', last', hconstants', -, -, htarget'⟩ := targetPath_of_constants job hother
  obtain ⟨parts, base, hparts, hall, -⟩ := Underscore.constants_of_isConstantPath hother
  rw [← hparts, hconstants'] at hall
  rw [hrooted, if_neg Bool.false_ne_true] at htarget
  rw [hrootedOther, if_neg Bool.false_ne_true] at htarget'
  rw [htarget, htarget'] at hne ⊢
  refine ⟨rfl, fun hfront => ?_⟩
  simp only [List.map_append, List.map_cons, List.map_nil] at hne hfront
  rw [List.prefix_append_right_inj] at hfront
  rcases List.prefix_concat_iff.mp hfront with heq | hbefore
  · exact hne (by rw [heq])
  · -- The name of the file would be the stem of a constant.
    have hname := hbefore.subset (List.mem_append_right _ List.mem_cons_self)
    obtain ⟨piece, hpiece, hsame⟩ := List.mem_map.mp hname
    obtain ⟨part, hpart, rfl⟩ := List.mem_map.mp hpiece
    exact stem_ne_fileName (hall part (List.mem_append_left _ hpart)) (String.ofList_inj.mp hsame)

/-- The files of two accepted models without double colons before their ids are apart if their paths
differ. -/
theorem apart_targetPath (h : Rbi.isConstantPath modelId = true)
    (hother : Rbi.isConstantPath other = true) (hrooted : isRooted modelId = false)
    (hrootedOther : isRooted other = false)
    (hne : job.targetPath modelId ≠ job.targetPath other) :
    (job.targetPath modelId).Apart (job.targetPath other) := by
  obtain ⟨hanchor, hleft⟩ := not_prefix_targetPath h hother hrooted hrootedOther hne
  obtain ⟨-, hright⟩ := not_prefix_targetPath hother h hrootedOther hrooted (Ne.symm hne)
  exact ⟨hanchor, hleft, hright⟩

/-- The files of accepted models without double colons before their ids are apart if their paths
differ and the output directory does not lead up. -/
theorem filesApart_of_ne (houtput : ".." ∉ (Path.ofText job.outputDir).names)
    (hpath : ∀ modelId ∈ modelIds, job.isProcessed manifest modelId = true →
      Rbi.isConstantPath modelId = true)
    (hplain : ∀ modelId ∈ modelIds, job.isProcessed manifest modelId = true →
      isRooted modelId = false)
    (hfiles : (modelIds.filter (job.isProcessed manifest)).Pairwise fun a b =>
      job.targetPath a ≠ job.targetPath b) : job.FilesApart manifest modelIds := by
  refine ⟨fun modelId hmem hprocessed =>
    (up_not_mem_targetPath (hpath modelId hmem hprocessed) houtput).1, ?_⟩
  refine hfiles.imp_of_mem fun {first second} hfirst hsecond hne => ?_
  obtain ⟨hmem, hprocessed⟩ := List.mem_filter.mp hfirst
  obtain ⟨hmem', hprocessed'⟩ := List.mem_filter.mp hsecond
  exact apart_targetPath (hpath first hmem hprocessed) (hpath second hmem' hprocessed')
    (hplain first hmem hprocessed) (hplain second hmem' hprocessed') hne

/-! ## The same entries -/

section SameModels

variable (h : Manifest.SameModels a b)
include h

/-- The order of the models does not tell their files apart. -/
theorem FilesApart.reordered {others : List WideText} (hapart : job.FilesApart a modelIds)
    (hperm : others.Perm modelIds) : job.FilesApart b others := by
  have hprocessed : job.isProcessed b = job.isProcessed a :=
    funext fun _ => (isProcessed_of_sameModels h).symm
  refine ⟨?_, ?_⟩
  · rw [hprocessed]
    exact fun modelId hmem => hapart.up_not_mem modelId (hperm.mem_iff.mp hmem)
  · rw [hprocessed]
    exact ((hperm.filter _).pairwise_iff fun hpaths => hpaths.symm).mpr hapart.apart

variable [Stack]

/-- From the same entries the same models are ready. -/
theorem Ready.of_sameModels (hready : job.Ready a workspace modelId) :
    job.Ready b workspace modelId := by
  obtain ⟨set, text, hcompose⟩ := hready.composed
  exact ⟨⟨set, text, compose_of_sameModels h hcompose⟩, hready.isOpen, hready.legible⟩

/-- From the same entries the same files are out of date. -/
theorem rewrites_of_sameModels (hrewrites : job.Rewrites a workspace modelId) :
    job.Rewrites b workspace modelId := by
  obtain ⟨hwrites, hprocessed, set, text, hcompose, hstale⟩ := hrewrites
  rw [isProcessed_of_sameModels h] at hprocessed
  exact ⟨hwrites, hprocessed, set, text, compose_of_sameModels h hcompose, hstale⟩

/-- From the same entries the same outcomes are foreseen. -/
theorem foreseen_of_sameModels :
    job.foreseen b workspace modelId = job.foreseen a workspace modelId := by
  unfold foreseen
  rw [isProcessed_of_sameModels h]
  cases hcompose : job.compose a modelId with
  | ok composed => rw [compose_of_sameModels h hcompose]
  | error failure =>
      cases hother : job.compose b modelId with
      | error failure => cases job.isProcessed b modelId <;> rfl
      | ok composed =>
          rw [compose_of_sameModels h.symm hother] at hcompose
          cases hcompose

end SameModels

/-- If a run over models with files apart completes, then so does one over the same models in
another order, unless it comes to a file on whose way too many directories are missing, and the two
do the same. -/
theorem visitAll_reordered [Stack] (hwrites : job.check = false) (hclosed : workspace.tree.Closed)
    (hapart : job.FilesApart a a.modelIds) (hsame : Manifest.SameModels a b)
    (hperm : b.modelIds.Perm a.modelIds)
    (h : (job.visitAll a workspace a.modelIds).result = .ok outcomes) :
    (∃ others, (job.visitAll b workspace b.modelIds).result = .ok others ∧
        others.Perm outcomes ∧
        (job.visitAll b workspace b.modelIds).workspace.here =
          (job.visitAll a workspace a.modelIds).workspace.here ∧
        ∀ location, (job.visitAll b workspace b.modelIds).workspace.tree.entry? location =
          (job.visitAll a workspace a.modelIds).workspace.tree.entry? location) ∨
      (job.visitAll b workspace b.modelIds).result = .error (.file .tooDeep) ∧
        ∃ modelId ∈ job.processedIds a,
          ¬ workspace.MissesAtMost Stack.missing (job.targetPath modelId).parent := by
  have hready := ready_of_visitAll hwrites hclosed hapart h
  have hapartOther := hapart.reordered hsame hperm
  have hreadyOther : ∀ modelId ∈ b.modelIds, job.isProcessed b modelId = true →
      job.Ready b workspace modelId := by
    intro modelId hmem hprocessed
    rw [← isProcessed_of_sameModels hsame] at hprocessed
    exact (hready modelId (hperm.mem_iff.mp hmem) hprocessed).of_sameModels hsame
  have hcases := visitAll_cases_of_ready hwrites (fun _ => id) hclosed hapart hready
  rw [h] at hcases
  rcases hcases with ⟨houtcomes, hcompletes⟩ | ⟨hdeep, -⟩
  · rcases visitAll_cases_of_ready hwrites (fun _ => id) hclosed hapartOther hreadyOther with
      ⟨hresult, hcompletesOther⟩ | ⟨hdeep, modelId, hmem, hprocessed, hmany⟩
    · refine .inl ⟨_, hresult, ?_, ?_, ?_⟩
      · cases houtcomes
        rw [List.map_congr_left fun _ _ => foreseen_of_sameModels hsame]
        exact hperm.map _
      · rw [hcompletes.frame.here_eq, hcompletesOther.frame.here_eq]
      · refine hcompletes.entry_unique hcompletesOther ?_ ?_ ?_
        · exact fun modelId hmem hrewrites => hapart.up_not_mem modelId hmem hrewrites.2.1
        · exact fun modelId => and_congr hperm.mem_iff.symm
            ⟨rewrites_of_sameModels hsame, rewrites_of_sameModels hsame.symm⟩
        · exact fun modelId set text hcompose => compose_of_sameModels hsame hcompose
    · refine .inr ⟨hdeep, modelId, List.mem_filter.mpr ⟨hperm.mem_iff.mp hmem, ?_⟩, hmany⟩
      rw [isProcessed_of_sameModels hsame]
      exact hprocessed
  · cases hdeep

/-! ## Two models -/

/-- The entries of two models with empty lists of state machines. -/
def pairEntries (first second : WideText) : Entries :=
  [(.str first, .map [(.str "state_machines", .map [])]),
    (.str second, .map [(.str "state_machines", .map [])])]

/-- The document of two models lists their entries. -/
theorem lists_pairDocument :
    Manifest.Lists (pairDocument first second) (pairEntries first second) :=
  ⟨_, rfl, rfl⟩

/-- The document of two models with ids apart gives the manifest of them. -/
theorem ofValue_pairDocument [Stack] (h : first ≠ second) :
    Manifest.ofValue "models.yml" (pairDocument first second) =
      .ok (pairManifest first second) := by
  have hmodels : List.Forall₂
      (fun entry model => Model.ofEntry "models.yml" entry.1 entry.2 = .ok model)
      (pairEntries first second) [⟨first, some []⟩, ⟨second, some []⟩] :=
    .cons rfl (.cons rfl .nil)
  rw [Manifest.ofValue_of_models lists_pairDocument hmodels,
    Model.foldl_insert_of_nodup (by simpa using h)]
  rfl

/-- Two entries can be listed the other way round. -/
theorem pairEntries_perm : (pairEntries second first).Perm (pairEntries first second) :=
  List.Perm.swap _ _ _

/-- The keys of two entries have texts apart if their ids differ. -/
theorem namesApart_pairEntries (h : first ≠ second) : NamesApart (pairEntries first second) := by
  refine (namesApart_iff [first, second] ?_).mpr (by simpa using h)
  exact .cons rfl (.cons rfl .nil)

/-- The registry that has read two models with empty lists of state machines. -/
def pairRegistry (first second : WideText) : Registry :=
  ⟨"models.yml", some (pairManifest first second)⟩

/-- In the manifest of two models with ids apart each is found under its id. -/
theorem model_pairManifest (h : first ≠ second) :
    ∀ modelId ∈ [first, second],
      (pairManifest first second).model modelId = .ok ⟨modelId, some []⟩ := by
  have hnodup : (pairManifest first second).modelIds.Nodup :=
    List.nodup_cons.mpr ⟨by simpa using h, by simp⟩
  intro modelId hmem
  rcases List.mem_pair.mp hmem with rfl | rfl
  · exact (Manifest.model_eq_ok_iff hnodup).mpr ⟨by simp [pairManifest], rfl⟩
  · exact (Manifest.model_eq_ok_iff hnodup).mpr ⟨by simp [pairManifest], rfl⟩

/-- A model with an empty list of state machines is processed unless it is excluded. -/
theorem isProcessed_of_empty (hmodel : manifest.model modelId = .ok ⟨modelId, some []⟩)
    (hexcluded : job.excluded = []) : job.isProcessed manifest modelId = true := by
  refine isProcessed_iff.mpr ⟨by rw [hexcluded]; rfl, ?_⟩
  rw [Manifest.isCapable, hmodel]
  rfl

/-- A text is composed for an accepted id with an empty list of state machines. -/
theorem compose_of_empty [Stack] (hmodel : manifest.model modelId = .ok ⟨modelId, some []⟩)
    (hpath : Rbi.isConstantPath modelId = true) :
    ∃ set text, job.compose manifest modelId = .ok (set, text) := by
  have hmodel' : manifest.model (Model.id ⟨modelId, some []⟩) = .ok ⟨modelId, some []⟩ := hmodel
  have hinspect : manifest.inspect job.types modelId = .ok (job.types.synthesize modelId []) :=
    Manifest.inspect_eq_synthesize hmodel' rfl rfl
  have hnone : ∀ method ∈ (job.types.synthesize modelId []).declarations, Rbi.Definable method :=
    fun method hmem => by cases hmem
  exact ⟨_, _, compose_eq_ok_iff.mpr ⟨hinspect, Rbi.emit_eq_ok_iff.mpr ⟨hpath, hnone, rfl⟩⟩⟩

/-! ## A long way -/

/-- The names on a long way. -/
def longWay : List String :=
  List.replicate 800 "a"

/-- The text of the path along the long way. -/
def longDir : String :=
  String.ofList (['/'].intercalate (List.replicate 800 ['a']))

/-- The text of the long way says the path along it. -/
theorem ofText_longDir : Path.ofText longDir = ⟨.here, longWay⟩ := by
  have hpieces : ∀ piece ∈ List.replicate 800 ['a'], Path.IsPiece piece := by
    intro piece hmem
    rw [List.eq_of_mem_replicate hmem]
    exact ⟨by decide, by decide, by decide⟩
  rw [Path.ofText, longDir, String.toList_ofList, Path.ofChars_intercalate hpieces,
    List.map_replicate]
  rfl

/-- The long way does not lead up. -/
theorem up_not_mem_longDir : ".." ∉ (Path.ofText longDir).names := by
  rw [ofText_longDir]
  exact fun hmem => absurd (List.eq_of_mem_replicate hmem) (by decide)

/-- A door in a house within a house, and so on. -/
def innerDoor : WideText :=
  .ofChars ([':', ':'].intercalate (List.replicate 300 "House".toList ++ ["Door".toList]))

/-- The door inside the houses has an accepted id, without double colons before it. -/
theorem innerDoor_accepted :
    Rbi.isConstantPath innerDoor = true ∧ isRooted innerDoor = false ∧
      Rbi.constants innerDoor = List.replicate 300 "House".toList ++ ["Door".toList] := by
  refine Underscore.isConstantPath_ofChars (List.concat_ne_nil _ _) fun part hmem => ?_
  rcases List.mem_append.mp hmem with hmem | hmem
  · rw [List.eq_of_mem_replicate hmem]
    decide
  · rw [List.mem_singleton.mp hmem]
    decide

/-- The lamp is another model than the door inside the houses. -/
theorem lamp_ne_innerDoor : ("Lamp" : WideText) ≠ innerDoor := by
  intro heq
  have hconstants := innerDoor_accepted.2.2
  rw [← heq] at hconstants
  have hlength := congrArg List.length hconstants
  rw [List.length_append, List.length_replicate] at hlength
  exact absurd hlength (by decide)

/-- At the end of the long way the path of a file goes on. -/
theorem targetPath_of_longDir {front : List (List Char)} {last : List Char}
    (houtput : job.outputDir = longDir) (hpath : Rbi.isConstantPath modelId = true)
    (hrooted : isRooted modelId = false) (hconstants : Rbi.constants modelId = front ++ [last]) :
    job.targetPath modelId =
      ⟨.here, longWay ++ front.map (String.ofList <| Underscore.stem ·) ++
        [String.ofList (Underscore.stem last ++ ".rbi".toList)]⟩ := by
  obtain ⟨front', last', hconstants', -, -, htarget⟩ := targetPath_of_constants job hpath
  obtain ⟨rfl, hlast⟩ := List.append_inj' (hconstants.symm.trans hconstants') rfl
  cases hlast
  rw [htarget, hrooted, if_neg Bool.false_ne_true, houtput, ofText_longDir]
  simp only [List.map_append, List.map_map, List.append_assoc, List.map_cons, List.map_nil]
  rfl

/-- The path of the file of the lamp. -/
theorem targetPath_lamp (houtput : job.outputDir = longDir) :
    job.targetPath "Lamp" = ⟨.here, longWay ++ [] ++ ["lamp.rbi"]⟩ := by
  have hconstants : Rbi.constants "Lamp" = [] ++ ["Lamp".toList] := by decide
  rw [targetPath_of_longDir houtput (by decide) (by decide) hconstants]
  rfl

/-- The path of the file of the door inside the houses. -/
theorem targetPath_innerDoor (houtput : job.outputDir = longDir) :
    job.targetPath innerDoor =
      ⟨.here, longWay ++ List.replicate 300 "house" ++ ["door.rbi"]⟩ := by
  obtain ⟨hpath, hrooted, hconstants⟩ := innerDoor_accepted
  rw [targetPath_of_longDir houtput hpath hrooted hconstants, List.map_replicate]
  rfl

/-- The lamp and the door inside the houses have files of their own. -/
theorem targetPath_lamp_ne (houtput : job.outputDir = longDir) :
    job.targetPath "Lamp" ≠ job.targetPath innerDoor := by
  rw [targetPath_lamp houtput, targetPath_innerDoor houtput]
  intro heq
  have hlength := congrArg (fun path => path.names.length) heq
  simp only [List.length_append, List.length_replicate, List.length_cons, List.length_nil]
    at hlength
  omega

section

variable [Stack]

/-- At the end of the long way and in an empty tree, a model with a text is ready, and all
directories on the way to its file are missing. -/
theorem ready_of_longDir {inner : List String} {file : String}
    (hpath : job.targetPath modelId = ⟨.here, longWay ++ inner ++ [file]⟩)
    (hcompose : ∃ set text, job.compose manifest modelId = .ok (set, text))
    (hnames : ∀ name ∈ inner ++ [file],
      name ≠ ".." ∧ '\x00' ∉ name.toList ∧ isLongName name = false)
    (hsize : Path.slashedSize (inner ++ [file]) ≤ 2495) :
    (job.Ready manifest ⟨.empty, []⟩ modelId ∧ job.OutOfDate manifest ⟨.empty, []⟩ modelId) ∧
      (Workspace.MissesAtMost ⟨.empty, []⟩ Stack.missing (job.targetPath modelId).parent ↔
        800 + inner.length ≤ Stack.missing) := by
  have hall : ∀ name ∈ longWay ++ inner ++ [file],
      name ≠ ".." ∧ '\x00' ∉ name.toList ∧ isLongName name = false := by
    intro name hmem
    rw [List.append_assoc] at hmem
    rcases List.mem_append.mp hmem with hmem | hmem
    · rw [List.eq_of_mem_replicate hmem]
      decide
    · exact hnames name hmem
  have hup : ".." ∉ longWay ++ inner ++ [file] := fun hmem => (hall _ hmem).1 rfl
  have hway : Path.slashedSize longWay = 1600 := Path.slashedSize_replicate 800 "a"
  have hspelled : Path.Spelled ⟨.here, longWay ++ inner ++ [file]⟩ := by
    refine .of_slashedSize (fun name hmem => (hall name hmem).2) ?_
    rw [List.append_assoc, Path.slashedSize_append, hway]
    omega
  refine ⟨ready_empty hcompose hpath hup hspelled (List.concat_ne_nil _ _), ?_⟩
  have hlength : longWay.length = 800 := List.length_replicate
  rw [hpath, Workspace.missesAtMost_empty_iff (Path.up_not_mem_parent hup)]
  simp only [Path.parent, List.dropLast_concat, List.length_append, hlength]

/-- In an empty tree the lamp is ready, and the directories on the way to its file can be made. -/
theorem ready_lamp (hleast : 800 ≤ Stack.missing) (houtput : job.outputDir = longDir)
    (hmodel : manifest.model "Lamp" = .ok ⟨"Lamp", some []⟩) :
    (job.Ready manifest ⟨.empty, []⟩ "Lamp" ∧ job.OutOfDate manifest ⟨.empty, []⟩ "Lamp") ∧
      Workspace.MissesAtMost ⟨.empty, []⟩ Stack.missing (job.targetPath "Lamp").parent := by
  obtain ⟨hready, hmissing⟩ := ready_of_longDir (targetPath_lamp houtput)
    (compose_of_empty hmodel (by decide)) (by decide) (by decide)
  exact ⟨hready, hmissing.mpr hleast⟩

/-- In an empty tree the door inside the houses is ready, and more directories are missing on the
way to its file than can be made at once. -/
theorem ready_innerDoor (hmost : Stack.missing < 1100) (houtput : job.outputDir = longDir)
    (hmodel : manifest.model innerDoor = .ok ⟨innerDoor, some []⟩) :
    (job.Ready manifest ⟨.empty, []⟩ innerDoor ∧
        job.OutOfDate manifest ⟨.empty, []⟩ innerDoor) ∧
      ¬ Workspace.MissesAtMost ⟨.empty, []⟩ Stack.missing
        (job.targetPath innerDoor).parent := by
  have hnames : ∀ name ∈ List.replicate 300 "house" ++ ["door.rbi"],
      name ≠ ".." ∧ '\x00' ∉ name.toList ∧ isLongName name = false := by
    intro name hmem
    rcases List.mem_append.mp hmem with hmem | hmem
    · rw [List.eq_of_mem_replicate hmem]
      decide
    · rw [List.mem_singleton.mp hmem]
      decide
  have hsize : Path.slashedSize (List.replicate 300 "house" ++ ["door.rbi"]) = 1809 := by
    rw [Path.slashedSize_append, Path.slashedSize_replicate]
    rfl
  obtain ⟨hready, hmissing⟩ := ready_of_longDir (targetPath_innerDoor houtput)
    (compose_of_empty hmodel innerDoor_accepted.1) hnames (by omega)
  rw [List.length_replicate] at hmissing
  exact ⟨hready, fun hfew => Nat.not_le.mpr hmost (hmissing.mp hfew)⟩

/-- At the end of the long way a run over the lamp and the door inside the houses completes. -/
theorem visitAll_lamp_innerDoor (hleast : 800 ≤ Stack.missing) (hmost : Stack.missing < 1100)
    (houtput : job.outputDir = longDir) (hwrites : job.check = false)
    (hexcluded : job.excluded = [])
    (hmodel : manifest.model "Lamp" = .ok ⟨"Lamp", some []⟩)
    (hmodelDoor : manifest.model innerDoor = .ok ⟨innerDoor, some []⟩) :
    ∃ outcomes, (job.visitAll manifest ⟨.empty, []⟩ ["Lamp", innerDoor]).result = .ok outcomes := by
  have hids : ∀ modelId ∈ [("Lamp" : WideText), innerDoor],
      Rbi.isConstantPath modelId = true ∧ isRooted modelId = false := by
    intro modelId hmem
    rcases List.mem_pair.mp hmem with rfl | rfl
    · decide
    · exact ⟨innerDoor_accepted.1, innerDoor_accepted.2.1⟩
  have hapart : job.FilesApart manifest ["Lamp", innerDoor] :=
    filesApart_of_ne (houtput ▸ up_not_mem_longDir) (fun modelId hmem _ => (hids modelId hmem).1)
      (fun modelId hmem _ => (hids modelId hmem).2)
      (List.Pairwise.filter _ (List.pairwise_pair.mpr (targetPath_lamp_ne houtput)))
  obtain ⟨⟨hready, hstale⟩, hfew⟩ := ready_lamp hleast houtput hmodel
  obtain ⟨⟨hreadyDoor, -⟩, -⟩ := ready_innerDoor hmost houtput hmodelDoor
  refine visitAll_pair FileTree.closed_empty hapart hready hreadyDoor
    ⟨hwrites, isProcessed_of_empty hmodel hexcluded, hstale⟩
    (isProcessed_of_empty hmodelDoor hexcluded) hfew ?_ ?_
  · rw [targetPath_lamp houtput, targetPath_innerDoor houtput]
  · -- What the first visit leaves missing is short enough.
    rw [targetPath_lamp houtput, targetPath_innerDoor houtput]
    simp only [Path.parent, List.dropLast_concat, List.append_nil]
    rw [List.take_append_of_le_length]
    · exact List.take_prefix _ _
    · have hlength : longWay.length = 800 := List.length_replicate
      rw [List.length_append, List.length_replicate]
      omega

/-- At the end of the long way a run that comes to the door inside the houses first stops at it. -/
theorem visitAll_innerDoor (hmost : Stack.missing < 1100) (houtput : job.outputDir = longDir)
    (hwrites : job.check = false) (hexcluded : job.excluded = [])
    (hmodel : manifest.model innerDoor = .ok ⟨innerDoor, some []⟩) (rest : List WideText) :
    (job.visitAll manifest ⟨.empty, []⟩ (innerDoor :: rest)).result = .error (.file .tooDeep) := by
  obtain ⟨⟨hready, hstale⟩, hmany⟩ := ready_innerDoor hmost houtput hmodel
  have hup := up_not_mem_targetPath innerDoor_accepted.1 (houtput ▸ up_not_mem_longDir)
  exact visitAll_eq_tooDeep hready FileTree.closed_empty hup.1
    ⟨hwrites, isProcessed_of_empty hmodel hexcluded, hstale⟩ hmany rest

/-! ## Runs -/

/-- If a run completes over a closed tree, then so does one over the same entries in another order,
with the same outcomes and the same files, unless it stops because too many directories are missing
on the way to a file. The output directory does not lead up, no id starts with double colons, keys
have texts apart, and no two models share a file. -/
theorem run_reordered {source otherSource : String} {document otherDocument : Value}
    {entries others : Entries} (hclosed : workspace.tree.Closed)
    (houtput : ".." ∉ (Path.ofText job.outputDir).names)
    (hlists : Manifest.Lists document entries) (hlistsOther : Manifest.Lists otherDocument others)
    (hperm : others.Perm entries) (hkeys : NamesApart entries)
    (hdocument : Manifest.ofValue source document = .ok manifest)
    (hmanifest : registry.manifest workspace = .ok manifest)
    (hshuffled : shuffled.manifest workspace = Manifest.ofValue otherSource otherDocument)
    (hplain : ∀ modelId ∈ job.processedIds manifest, isRooted modelId = false)
    (hfiles : (job.processedIds manifest).Pairwise fun first second =>
      job.targetPath first ≠ job.targetPath second)
    (hrun : (job.generating.run registry workspace).result = .ok report) :
    let first := job.generating.run registry workspace
    let second := job.generating.run shuffled workspace
    (∃ reordered, second.result = .ok reordered ∧ reordered.outcomes.Perm report.outcomes ∧
        second.workspace.here = first.workspace.here ∧
        ∀ location, second.workspace.tree.entry? location =
          first.workspace.tree.entry? location) ∨
      second.result = .error (.file .tooDeep) ∧ ∃ modelId ∈ job.processedIds manifest,
        ¬ workspace.MissesAtMost Stack.missing (job.targetPath modelId).parent := by
  intro first second
  obtain ⟨other, hother, hmodels⟩ :=
    Manifest.ofValue_reordered hlists hlistsOther hperm hkeys hdocument otherSource
  have hmanifestOther : shuffled.manifest workspace = .ok other := hshuffled.trans hother
  have hsame := Manifest.sameModels_of_perm (Manifest.nodup_modelIds hdocument) hmodels
  have hids : other.modelIds.Perm manifest.modelIds := hmodels.map _
  have hvisits := (run_result_eq_ok_iff hmanifest).mp hrun
  have hapart : job.generating.FilesApart manifest manifest.modelIds := by
    refine filesApart_of_ne houtput ?_ ?_ hfiles
    · intro modelId hmem hprocessed
      obtain ⟨set, text, hcompose⟩ := compose_of_visitAll hvisits modelId hmem hprocessed
      exact isConstantPath_of_compose hcompose
    · exact fun modelId hmem hprocessed =>
        hplain modelId (List.mem_filter.mpr ⟨hmem, hprocessed⟩)
  have hworkspace : first.workspace =
      (job.generating.visitAll manifest workspace manifest.modelIds).workspace :=
    run_workspace hmanifest
  have hworkspaceOther : second.workspace =
      (job.generating.visitAll other workspace other.modelIds).workspace :=
    run_workspace hmanifestOther
  rw [hworkspace, hworkspaceOther]
  rcases visitAll_reordered rfl hclosed hapart hsame hids hvisits with
    ⟨outcomes, hresult, hrest⟩ | ⟨hdeep, hmany⟩
  · exact .inl ⟨⟨outcomes⟩, (run_result_eq_ok_iff hmanifestOther).mpr hresult, hrest⟩
  · exact .inr ⟨(run_result_eq_error_iff hmanifestOther).mpr hdeep, hmany⟩

end

open scoped Stack

/-- A run over a lamp and a door does the same as one over the door and the lamp. -/
theorem run_reordered_lampAndDoor :
    let job : Job := { emitter := {}, outputDir := "rbi", excluded := [] }
    let run := fun first second : WideText =>
      job.generating.run (pairRegistry first second) ⟨.empty, []⟩
    ∃ report reordered, (run "Lamp" "House::Door").result = .ok report ∧
      (run "House::Door" "Lamp").result = .ok reordered ∧
      reordered.outcomes.Perm report.outcomes ∧
      ∀ location, (run "House::Door" "Lamp").workspace.tree.entry? location =
        (run "Lamp" "House::Door").workspace.tree.entry? location := by
  intro job run
  have hrun : (run "Lamp" "House::Door").result = .ok
      ⟨[⟨"Lamp", .written, some "rbi/lamp.rbi", 0, ""⟩,
        ⟨"House::Door", .written, some "rbi/house/door.rbi", 0, ""⟩]⟩ := by
    decide +kernel
  have hdocument : Manifest.ofValue "models.yml" (pairDocument "Lamp" "House::Door") =
      .ok (pairManifest "Lamp" "House::Door") := rfl
  have hmanifest : (pairRegistry "Lamp" "House::Door").manifest ⟨.empty, []⟩ =
      .ok (pairManifest "Lamp" "House::Door") := rfl
  have hshuffled : (pairRegistry "House::Door" "Lamp").manifest ⟨.empty, []⟩ =
      Manifest.ofValue "models.yml" (pairDocument "House::Door" "Lamp") := rfl
  rcases run_reordered FileTree.closed_empty (by decide +kernel) lists_pairDocument
      lists_pairDocument pairEntries_perm (namesApart_pairEntries (by decide)) hdocument hmanifest
      hshuffled (by decide +kernel) (by decide +kernel) hrun with
    ⟨reordered, hresult, hsame, -, htree⟩ | ⟨hdeep, -⟩
  · exact ⟨_, reordered, hrun, hresult, hsame, htree⟩
  · exact absurd hdeep (by decide +kernel)

/-- At the end of the long way a run over the lamp and the door inside the houses completes. The
other way round it stops at the door, because too many directories are missing on the way to it. -/
theorem not_run_reordered_longDir :
    let job : Job := { emitter := {}, outputDir := longDir, excluded := [] }
    let run := fun first second : WideText =>
      job.generating.run (pairRegistry first second) ⟨.empty, []⟩
    (pairEntries innerDoor "Lamp").Perm (pairEntries "Lamp" innerDoor) ∧
      NamesApart (pairEntries "Lamp" innerDoor) ∧
      (Manifest.ofValue "models.yml" (pairDocument "Lamp" innerDoor) =
          .ok (pairManifest "Lamp" innerDoor) ∧
        Manifest.ofValue "models.yml" (pairDocument innerDoor "Lamp") =
          .ok (pairManifest innerDoor "Lamp")) ∧
      ".." ∉ (Path.ofText job.outputDir).names ∧
      (isRooted "Lamp" = false ∧ isRooted innerDoor = false) ∧
      job.targetPath "Lamp" ≠ job.targetPath innerDoor ∧
      (∃ report, (run "Lamp" innerDoor).result = .ok report) ∧
      (run innerDoor "Lamp").result = .error (.file .tooDeep) := by
  intro job run
  have hids := lamp_ne_innerDoor
  have houtput : job.generating.outputDir = longDir := rfl
  refine ⟨pairEntries_perm, namesApart_pairEntries hids,
    ⟨ofValue_pairDocument hids, ofValue_pairDocument hids.symm⟩, up_not_mem_longDir,
    ⟨by decide, innerDoor_accepted.2.1⟩, targetPath_lamp_ne rfl, ?_, ?_⟩
  · have hmanifest : (pairRegistry "Lamp" innerDoor).manifest ⟨.empty, []⟩ =
        .ok (pairManifest "Lamp" innerDoor) := rfl
    have hmodel := model_pairManifest hids
    obtain ⟨outcomes, hvisits⟩ := visitAll_lamp_innerDoor (by decide) (by decide) houtput rfl rfl
      (hmodel "Lamp" List.mem_cons_self) (hmodel innerDoor (by simp))
    exact ⟨⟨outcomes⟩, (run_result_eq_ok_iff hmanifest).mpr hvisits⟩
  · have hmanifest : (pairRegistry innerDoor "Lamp").manifest ⟨.empty, []⟩ =
        .ok (pairManifest innerDoor "Lamp") := rfl
    have hmodel := model_pairManifest hids.symm
    exact (run_result_eq_error_iff hmanifest).mpr
      (visitAll_innerDoor (by decide) houtput rfl rfl (hmodel innerDoor List.mem_cons_self)
        ["Lamp"])

end MachineRbi.Job
