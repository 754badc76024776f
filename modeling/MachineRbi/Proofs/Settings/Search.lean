import MachineRbi.Proofs.Files.Rooted
import MachineRbi.Proofs.Files.Reading
import MachineRbi.Proofs.Traversal
import MachineRbi.Settings

/-!
# The search for settings

Settings are looked for from a directory upward. A directory either has no settings file, or one
that is no document and is noted, or one whose document decides (`searchIn_cons`). So the nearest
document decides whatever stands further up, and every nearer file is noted once (`search_nearest`).
From a directory whose path is as long as a path can be, the search fails before it has looked at
any file (`not_search_empty_deepDirectory`).
-/

namespace MachineRbi.Settings

/-! ## What a directory says -/

/-- What stands in a directory where the settings can be. -/
def entryIn (tree : FileTree) (directory : Location) : Option Entry :=
  tree.entry? (directory ++ [fileName])

section

variable [Stack]

/-- The document in bytes, if they hold one. -/
def documentOf (bytes : ByteArray) : Except Failure (Option Entries) :=
  match decodeText bytes with
  | none => .error (.file .undecodable)
  | some text =>
    match Toml.parse text with
    | .ok document => .ok (some document)
    | .error .malformed => .ok none
    | .error .oversized => .error (.settings .oversizedNumber)
    | .error .tooDeep => .error (.settings .tooDeep)

/-- The document in the settings file of a directory. -/
def documentIn? (tree : FileTree) (directory : Location) : Option Entries :=
  match entryIn tree directory with
  | some (.file bytes) => (documentOf bytes).toOption.join
  | _ => none

/-- A directory has a settings file that is no document. -/
def isUnread (tree : FileTree) (directory : Location) : Bool :=
  match entryIn tree directory with
  | some (.file bytes) => (documentOf bytes).toOption.join.isNone
  | _ => false

/-- The settings file of a directory, if there is one, is a text that either is a document or breaks
a rule of the language. -/
def IsLegible (tree : FileTree) (directory : Location) : Prop :=
  ∀ bytes, entryIn tree directory = some (.file bytes) →
    ∃ text, decodeText bytes = some text ∧
      ∀ fault, Toml.parse text = .error fault → fault = .malformed

/-- The notes about the files in directories that are no documents. -/
def unreadRecords (tree : FileTree) (directories : List Location) : List LogRecord :=
  (directories.filter (isUnread tree)).map fun directory => unreadRecord (directory ++ [fileName])

/-- The table of this tool in the table of all tools, where one that says nothing is empty. -/
def sectionOf (tool : Entries) : Value :=
  match tool.get? "aasm-rbi" with
  | some table => if table.isTruthy then table else .map []
  | none => .map []

variable {tree : FileTree} {directory location : Location} {directories front : List Location}
  {workspace : Workspace} {start : Path}

/-- A file is legible exactly if reading it as a document does not fail. -/
theorem isLegible_iff :
    IsLegible tree directory ↔ ∀ bytes, entryIn tree directory = some (.file bytes) →
      ∃ document?, documentOf bytes = .ok document? := by
  refine forall_congr' fun bytes => imp_congr_right fun _ => ?_
  unfold documentOf
  cases decodeText bytes with
  | none => simp
  | some text =>
      cases hparse : Toml.parse text with
      | ok document => simp [hparse]
      | error fault => cases fault <;> simp [hparse]

omit [Stack] in
/-- The table in a document is the one of this tool, if that of all tools is a table or missing. -/
theorem tableIn_eq_sectionOf {document tool : Entries}
    (h : document.get? "tool" = some (.map tool) ∨ document.get? "tool" = none ∧ tool = []) :
    tableIn document = .ok (sectionOf tool) := by
  have htool : subtable (.map document) "tool" = .ok (.map tool) := by
    rcases h with h | ⟨h, rfl⟩
    · have hkept : (if !tool.isEmpty then Value.map tool else .map []) = .map tool := by
        cases tool <;> rfl
      rw [subtable]
      simp only [Value.entries?, Entries.valueOf, h, Option.getD_some, Value.isTruthy, hkept]
    · simp [subtable, Value.entries?, Entries.valueOf, h, Value.isTruthy, Scalar.isTruthy]
  have hsection : subtable (.map tool) "aasm-rbi" = .ok (sectionOf tool) := by
    unfold subtable sectionOf
    cases hvalue : tool.get? "aasm-rbi" <;>
      simp [Value.entries?, Entries.valueOf, hvalue, Value.isTruthy, Scalar.isTruthy]
  simp only [tableIn, htool, hsection, bind, Except.bind]

/-! ## One directory after the other -/

/-- The search sees what stands in a directory. -/
def Sees (workspace : Workspace) (directory : Location) : Prop :=
  workspace.find? ⟨.root, directory ++ [fileName]⟩ = .ok (entryIn workspace.tree directory)

/-- The settings file of a directory decides if it is a document, is noted if it breaks a rule of
the language, and ends the search if it cannot be read at all. -/
theorem searchIn_cons (hsees : Sees workspace directory) (rest : List Location) :
    searchIn workspace (directory :: rest) =
      match entryIn workspace.tree directory with
      | some (.file bytes) =>
        match documentOf bytes with
        | .error failure => (.error failure, [])
        | .ok (some document) =>
          ((tableIn document).mapError .settings, [loadedRecord (directory ++ [fileName])])
        | .ok none =>
          ((searchIn workspace rest).1,
            unreadRecord (directory ++ [fileName]) :: (searchIn workspace rest).2)
      | _ => searchIn workspace rest := by
  have hfind : workspace.find? ⟨.root, directory ++ [fileName]⟩ = _ := hsees
  rw [searchIn, hfind]
  cases entryIn workspace.tree directory with
  | none => rfl
  | some entry =>
      cases entry with
      | directory => rfl
      | file bytes =>
          dsimp only
          unfold documentOf
          cases decodeText bytes with
          | none => rfl
          | some text =>
              dsimp only
              cases Toml.parse text with
              | ok document => rfl
              | error fault => cases fault <;> rfl

/-- The search passes legible directories without a document, and notes their files. -/
theorem searchIn_append (hsees : ∀ directory ∈ front, Sees workspace directory)
    (hlegible : ∀ directory ∈ front, IsLegible workspace.tree directory)
    (hnone : ∀ directory ∈ front, documentIn? workspace.tree directory = none)
    (rest : List Location) :
    searchIn workspace (front ++ rest) =
      ((searchIn workspace rest).1,
        unreadRecords workspace.tree front ++ (searchIn workspace rest).2) := by
  induction front with
  | nil => rfl
  | cons directory others ih =>
      have hpassed := ih (fun other hmem => hsees other (List.mem_cons_of_mem _ hmem))
        (fun other hmem => hlegible other (List.mem_cons_of_mem _ hmem))
        (fun other hmem => hnone other (List.mem_cons_of_mem _ hmem))
      have hread := isLegible_iff.mp (hlegible directory List.mem_cons_self)
      have hdocument := hnone directory List.mem_cons_self
      rw [List.cons_append, searchIn_cons (hsees directory List.mem_cons_self), hpassed]
      cases hentry : entryIn workspace.tree directory with
      | none => simp [unreadRecords, isUnread, hentry]
      | some entry =>
          cases entry with
          | directory => simp [unreadRecords, isUnread, hentry]
          | file bytes =>
              obtain ⟨document?, hbytes⟩ := hread bytes hentry
              simp only [documentIn?, hentry, hbytes, Except.toOption, Option.join_some]
                at hdocument
              simp [unreadRecords, isUnread, hentry, hbytes, hdocument, Except.toOption]

/-- The search stops at a directory with a document. -/
theorem searchIn_of_document (hsees : Sees workspace directory) {document : Entries}
    (h : documentIn? workspace.tree directory = some document) (rest : List Location) :
    searchIn workspace (directory :: rest) =
      ((tableIn document).mapError .settings, [loadedRecord (directory ++ [fileName])]) := by
  rw [searchIn_cons hsees]
  unfold documentIn? at h
  cases hentry : entryIn workspace.tree directory with
  | none => simp [hentry] at h
  | some entry =>
      cases entry with
      | directory => simp [hentry] at h
      | file bytes =>
          cases hbytes : documentOf bytes with
          | error failure => simp [hentry, hbytes, Except.toOption] at h
          | ok document? =>
              obtain rfl : document? = some document := by
                simpa [hentry, hbytes, Except.toOption] using h
              simp only [hbytes]

/-- Directories with the same entries say the same. -/
theorem documentIn?_congr {other : FileTree}
    (h : entryIn other directory = entryIn tree directory) :
    documentIn? other directory = documentIn? tree directory := by
  unfold documentIn?
  rw [h]

/-- Directories with the same entries have the same files that are no documents. -/
theorem unreadRecords_congr {other : FileTree}
    (h : ∀ directory ∈ front, entryIn other directory = entryIn tree directory) :
    unreadRecords other front = unreadRecords tree front := by
  have hsame : ∀ directory ∈ front, isUnread other directory = isUnread tree directory := by
    intro directory hmem
    unfold isUnread
    rw [h directory hmem]
  rw [unreadRecords, unreadRecords, List.filter_congr hsame]

/-! ## The way up -/

omit [Stack] in
/-- The locations from one up to the root are those on the way to it. -/
theorem mem_upward_iff : directory ∈ upward location ↔ directory <+: location := by
  simp only [upward, List.mem_map, List.mem_range]
  constructor
  · rintro ⟨n, -, rfl⟩
    exact List.take_prefix _ _
  · intro hprefix
    refine ⟨location.length - directory.length, by omega, ?_⟩
    rw [Nat.sub_sub_self hprefix.length_le]
    exact (List.prefix_iff_eq_take.mp hprefix).symm

omit [Stack] in
/-- The way up starts at the location itself. -/
theorem upward_eq_cons (location : Location) : ∃ rest, upward location = location :: rest := by
  refine ⟨(List.range location.length).map fun n => location.take (location.length - (n + 1)), ?_⟩
  rw [upward, List.range_succ_eq_map, List.map_cons, List.map_map, Nat.sub_zero, List.take_length]
  rfl

omit [Stack] in
/-- The name of the settings file is a proper one. -/
theorem isProper_settingsFile (h : location.IsProper) :
    Location.IsProper (location ++ [fileName]) :=
  h.concat (by decide) (by decide)

omit [Stack] in
/-- Up from a proper location within the limits the search sees every directory. -/
theorem sees_of_mem_upward (hclosed : workspace.tree.Closed) (hproper : location.IsProper)
    (hwithin : Path.WithinLimits ⟨.root, location ++ [fileName]⟩) :
    ∀ directory ∈ upward location, Sees workspace directory := by
  intro directory hmem
  have hprefix := mem_upward_iff.mp hmem
  exact Workspace.find?_root hclosed (isProper_settingsFile (hproper.of_prefix hprefix))
    (hwithin.of_prefix hprefix)

/-- The search from a path is that on the way up from the location it says. -/
theorem search_eq (h : workspace.resolve start = .ok location) :
    search workspace start = searchIn workspace (upward location) := by
  rw [search, h]

/-- Up from a location within the limits, the first document decides. -/
theorem search_of_document (hclosed : workspace.tree.Closed) (hproper : location.IsProper)
    (hwithin : Path.WithinLimits ⟨.root, location ++ [fileName]⟩)
    (hstart : workspace.resolve start = .ok location) {back : List Location} {document : Entries}
    (hupward : upward location = front ++ directory :: back)
    (hlegible : ∀ nearer ∈ front, IsLegible workspace.tree nearer)
    (hnone : ∀ nearer ∈ front, documentIn? workspace.tree nearer = none)
    (hdocument : documentIn? workspace.tree directory = some document) :
    search workspace start =
      ((tableIn document).mapError .settings,
        unreadRecords workspace.tree front ++ [loadedRecord (directory ++ [fileName])]) := by
  have hsees := sees_of_mem_upward hclosed hproper hwithin
  rw [hupward] at hsees
  rw [search_eq hstart, hupward,
    searchIn_append (fun nearer hmem => hsees nearer (List.mem_append_left _ hmem)) hlegible hnone,
    searchIn_of_document (hsees directory (by simp)) hdocument]

/-- Up from a location within the limits, without a document nothing is found. -/
theorem search_of_none (hclosed : workspace.tree.Closed) (hproper : location.IsProper)
    (hwithin : Path.WithinLimits ⟨.root, location ++ [fileName]⟩)
    (hstart : workspace.resolve start = .ok location)
    (hlegible : ∀ directory ∈ upward location, IsLegible workspace.tree directory)
    (hnone : ∀ directory ∈ upward location, documentIn? workspace.tree directory = none) :
    search workspace start = (.ok (.map []), unreadRecords workspace.tree (upward location)) := by
  have hpassed := searchIn_append (sees_of_mem_upward hclosed hproper hwithin) hlegible hnone []
  rw [List.append_nil] at hpassed
  rw [search_eq hstart, hpassed, searchIn, List.append_nil]

/-- From a directory whose settings file would be beyond the limits, the search fails. -/
theorem search_of_long (hclosed : workspace.tree.Closed) (hproper : location.IsProper)
    (hlong : ¬ Path.WithinLimits ⟨.root, location ++ [fileName]⟩)
    (hstart : workspace.resolve start = .ok location)
    (hdirectory : workspace.tree.entry? location = some .directory) :
    search workspace start = (.error (.file .tooLong), []) := by
  obtain ⟨rest, hrest⟩ := upward_eq_cons location
  rw [search_eq hstart, hrest, searchIn,
    Workspace.find?_root_of_long hclosed (isProper_settingsFile hproper) hlong hdirectory]

/-! ## The nearest document -/

/-- Text in the language is a document. -/
theorem documentOf_toUTF8 {text : String} {document : Entries}
    (h : Toml.parse text = .ok document) : documentOf text.toUTF8 = .ok (some document) := by
  rw [documentOf, decodeText_toUTF8]
  dsimp only
  rw [h]

/-- Text that breaks a rule of the language is no document. -/
theorem documentOf_toUTF8_of_malformed {text : String} (h : Toml.parse text = .error .malformed) :
    documentOf text.toUTF8 = .ok none := by
  rw [documentOf, decodeText_toUTF8]
  dsimp only
  rw [h]

/-- The document that binds a scalar behind keys. -/
def single (value : Scalar) : List Scalar → Entries
  | [] => []
  | [key] => [(key, .scalar value)]
  | key :: keys => [(key, .map (single value keys))]

/-- The document binds the scalar behind the keys, and nothing else. -/
def isSingle (value : Scalar) : List Scalar → Entries → Bool
  | [key], [(other, .scalar found)] => other = key && found = value
  | key :: keys, [(other, .map entries)] => other = key && isSingle value keys entries
  | _, _ => false

omit [Stack] in
/-- A document is told by the only scalar in it and the keys before that. -/
theorem eq_single_of_isSingle {value : Scalar} {keys : List Scalar} {document : Entries}
    (h : isSingle value keys document = true) : document = single value keys := by
  fun_induction isSingle value keys document with
  | case1 key other found =>
      simp only [Bool.and_eq_true, decide_eq_true_eq] at h
      rw [h.1, h.2, single]
  | case2 key keys other entries ih =>
      simp only [Bool.and_eq_true, decide_eq_true_eq] at h
      rw [h.1, ih h.2]
      cases keys with
      | nil => simp [isSingle] at h
      | cons => rfl
  | case3 => cases h

/-- A text that says one scalar alone is read as its document. -/
theorem parse_of_isSingle {text : String} {value : Scalar} {keys : List Scalar}
    (h : (Toml.parse text).toOption.any (isSingle value keys) = true) :
    Toml.parse text = .ok (single value keys) := by
  cases hparse : Toml.parse text with
  | error fault =>
      rw [hparse] at h
      cases h
  | ok document =>
      rw [hparse] at h
      rw [eq_single_of_isSingle h]

/-- The directory has a document, and those before it are legible and have none. -/
structure IsNearest (tree : FileTree) (directories front : List Location) (directory : Location)
    (document : Entries) : Prop where
  split : ∃ back, directories = front ++ directory :: back
  legible : ∀ nearer ∈ front, IsLegible tree nearer
  passed : ∀ nearer ∈ front, documentIn? tree nearer = none
  document : documentIn? tree directory = some document

/-- The directories are legible, and none has a document. -/
structure HasNone (tree : FileTree) (directories : List Location) : Prop where
  legible : ∀ directory ∈ directories, IsLegible tree directory
  passed : ∀ directory ∈ directories, documentIn? tree directory = none

/-- The nearest document is so in every tree with the same entries up to it. -/
theorem IsNearest.congr {other : FileTree} {document : Entries}
    (h : IsNearest tree directories front directory document)
    (hsame : ∀ nearer ∈ front ++ [directory], entryIn other nearer = entryIn tree nearer) :
    IsNearest other directories front directory document := by
  have hfront := fun nearer hmem => hsame nearer (List.mem_append_left [directory] hmem)
  refine ⟨h.split, fun nearer hmem bytes hfile => ?_, fun nearer hmem => ?_, ?_⟩
  · rw [hfront nearer hmem] at hfile
    exact h.legible nearer hmem bytes hfile
  · rw [documentIn?_congr (hfront nearer hmem)]
    exact h.passed nearer hmem
  · rw [documentIn?_congr (hsame directory (by simp))]
    exact h.document

/-- From a path to a location whose settings file would be within the limits, the nearest document
decides: the search gives what it says, notes each nearer file once, and is the same in every other
workspace with the same entries up to it. It finds the table of this tool if that of all tools is a
table or missing. Without any document it finds an empty table. From a directory beyond the limits
it fails. -/
theorem search_nearest (hclosed : workspace.tree.Closed) (hhere : Location.IsProper workspace.here)
    (hstart : workspace.resolve start = .ok location) :
    (Path.WithinLimits ⟨.root, location ++ [fileName]⟩ →
      (∀ front directory document,
        IsNearest workspace.tree (upward location) front directory document →
          search workspace start =
            ((tableIn document).mapError .settings,
              unreadRecords workspace.tree front ++ [loadedRecord (directory ++ [fileName])]) ∧
          (∀ other : Workspace, other.tree.Closed → other.resolve start = .ok location →
            (∀ nearer ∈ front ++ [directory],
              entryIn other.tree nearer = entryIn workspace.tree nearer) →
            search other start = search workspace start) ∧
          ∀ tool, document.get? "tool" = some (.map tool) ∨
              document.get? "tool" = none ∧ tool = [] →
            (search workspace start).1 = .ok (sectionOf tool)) ∧
      (HasNone workspace.tree (upward location) →
        search workspace start =
          (.ok (.map []), unreadRecords workspace.tree (upward location)))) ∧
    (¬ Path.WithinLimits ⟨.root, location ++ [fileName]⟩ →
      workspace.tree.entry? location = some .directory →
      search workspace start = (.error (.file .tooLong), [])) := by
  have hproper := Workspace.isProper_resolve hhere hstart
  refine ⟨fun hwithin => ⟨fun front directory document hnearest => ?_, fun hnone => ?_⟩,
    fun hlong hdirectory => ?_⟩
  · obtain ⟨back, hsplit⟩ := hnearest.split
    have hfound := search_of_document hclosed hproper hwithin hstart hsplit hnearest.legible
      hnearest.passed hnearest.document
    refine ⟨hfound, fun other hother hotherStart hsame => ?_, fun tool htool => ?_⟩
    · have hotherNearest := hnearest.congr hsame
      rw [hfound, search_of_document hother hproper hwithin hotherStart hsplit
        hotherNearest.legible hotherNearest.passed hotherNearest.document,
        unreadRecords_congr fun nearer hmem => hsame nearer (List.mem_append_left _ hmem)]
    · rw [hfound, tableIn_eq_sectionOf htool]
      rfl
  · exact search_of_none hclosed hproper hwithin hstart hnone.legible hnone.passed
  · exact search_of_long hclosed hproper hlong hstart hdirectory

end

open scoped Stack

/-- The file in the house breaks a rule of the language, so the one at the root decides. -/
theorem search_nearest_house :
    let tree := (FileTree.place .empty [fileName]
      (.file "[tool.aasm-rbi]\ntyped_sigil = \"true\"\n".toUTF8)).place ["house", fileName]
      (.file "[tool".toUTF8)
    search ⟨tree, ["house"]⟩ Path.here =
      (.ok (.map [(.str "typed_sigil", .str "true")]),
        [unreadRecord ["house", fileName], loadedRecord [fileName]]) := by
  intro tree
  have hhere : Location.IsProper ["house"] := by
    unfold Location.IsProper
    decide
  have hclosed : tree.Closed :=
    (FileTree.closed_empty.place (by decide) (by decide +kernel) _).place (by decide)
      (by decide +kernel) _
  have hmalformed : (Toml.parse "[tool").map (fun _ => ()) = .error .malformed := by
    decide +kernel
  have hlower : documentOf "[tool".toUTF8 = .ok none :=
    documentOf_toUTF8_of_malformed (map_eq_error_iff.mp hmalformed)
  have hupper : documentOf "[tool.aasm-rbi]\ntyped_sigil = \"true\"\n".toUTF8 =
      .ok (some (single (.str "true") [.str "tool", .str "aasm-rbi", .str "typed_sigil"])) :=
    documentOf_toUTF8 (parse_of_isSingle (by decide +kernel))
  have hhouse : entryIn tree ["house"] = some (.file "[tool".toUTF8) := by decide +kernel
  have hroot : entryIn tree [] =
      some (.file "[tool.aasm-rbi]\ntyped_sigil = \"true\"\n".toUTF8) := by decide +kernel
  have hnearest : IsNearest tree (upward ["house"]) [["house"]] []
      (single (.str "true") [.str "tool", .str "aasm-rbi", .str "typed_sigil"]) := by
    refine ⟨⟨[], rfl⟩, ?_, ?_, ?_⟩
    · rw [List.forall_mem_singleton, isLegible_iff, hhouse]
      rintro bytes h
      cases h
      exact ⟨none, hlower⟩
    · rw [List.forall_mem_singleton, documentIn?, hhouse]
      simp only [hlower]
      rfl
    · rw [documentIn?, hroot]
      simp only [hupper]
      rfl
  have hwithin : Path.WithinLimits ⟨.root, ["house", fileName]⟩ := ⟨by decide +kernel, by decide⟩
  obtain ⟨hdecides, -⟩ :=
    (@search_nearest _ ["house"] ⟨tree, ["house"]⟩ Path.here hclosed hhere rfl).1 hwithin
  obtain ⟨hsearch, -, htable⟩ := hdecides [["house"]] [] _ hnearest
  have hsection := htable _ (.inl rfl)
  have hunread : unreadRecords tree [["house"]] = [unreadRecord ["house", fileName]] := by
    rw [unreadRecords, List.filter_cons_of_pos, List.filter_nil]
    · rfl
    · rw [isUnread, hhouse]
      simp only [hlower]
      rfl
  have hnotes : (search ⟨tree, ["house"]⟩ Path.here).2 =
      [unreadRecord ["house", fileName], loadedRecord [fileName]] := by
    rw [hsearch]
    show unreadRecords tree [["house"]] ++ [loadedRecord [fileName]] = _
    rw [hunread, List.singleton_append]
  exact Prod.ext hsection hnotes

/-! ## Beyond the limits -/

/-- A directory whose path has not much fewer bytes than a path can have. -/
def deepDirectory : Location :=
  List.replicate 2043 "a"

/-- From a deep directory without any settings file on the way up, the search does not find an empty
table. -/
theorem not_search_empty_deepDirectory :
    let tree := FileTree.openWay .empty [] deepDirectory
    tree.Closed ∧ deepDirectory.IsProper ∧ Path.WithinLimits ⟨.root, deepDirectory⟩ ∧
      tree.entry? deepDirectory = some .directory ∧
      (∀ directory ∈ upward deepDirectory, entryIn tree directory = none) ∧
      search ⟨tree, []⟩ ⟨.root, deepDirectory⟩ = (.error (.file .tooLong), []) := by
  intro tree
  have hname : ∀ name ∈ deepDirectory, name = "a" := fun name hmem => List.eq_of_mem_replicate hmem
  have hsize : Path.slashedSize deepDirectory = 4086 := Path.slashedSize_replicate 2043 "a"
  have hnonempty : deepDirectory ≠ [] := by
    intro hnil
    rw [hnil] at hsize
    exact absurd hsize (by decide)
  have hproper : deepDirectory.IsProper := by
    intro name hmem
    rw [hname name hmem]
    decide
  have hwithin : Path.WithinLimits ⟨.root, deepDirectory⟩ := by
    refine ⟨?_, fun name hmem => ?_⟩
    · rw [Workspace.isLongPath_root hnonempty, hsize]
      rfl
    · rw [hname name hmem]
      rfl
  have hlong : ¬ Path.WithinLimits ⟨.root, deepDirectory ++ [fileName]⟩ := by
    intro h
    have hshort := h.isLongPath
    rw [Workspace.isLongPath_root (by simp), Path.slashedSize_append, hsize] at hshort
    exact absurd hshort (by decide)
  obtain ⟨hclosed, hentry⟩ :
      tree.Closed ∧ FileTree.entry? tree ([] ++ deepDirectory) = some .directory :=
    FileTree.closed_empty.openWay (show FileTree.entry? .empty [] = _ from rfl) deepDirectory
  rw [List.nil_append] at hentry
  have hnone : ∀ directory ∈ upward deepDirectory, entryIn tree directory = none := by
    intro directory hmem
    have haway : ¬ directory ++ [fileName] <+: [] ++ deepDirectory := by
      rw [List.nil_append]
      intro hfront
      have hfile := hname fileName (hfront.subset (by simp))
      exact absurd hfile (by decide)
    rw [entryIn, FileTree.entry?_openWay haway, FileTree.entry?_empty (by simp)]
  clear_value tree
  have hresolve : Workspace.resolve ⟨tree, []⟩ ⟨.root, deepDirectory⟩ = .ok deepDirectory :=
    Workspace.resolve_root hproper
  exact ⟨hclosed, hproper, hwithin, hentry, hnone,
    search_of_long hclosed hproper hlong hresolve hentry⟩

end MachineRbi.Settings
