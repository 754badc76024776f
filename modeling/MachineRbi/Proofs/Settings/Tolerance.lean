import Mathlib.Data.List.TakeWhile
import MachineRbi.Proofs.Settings.Search
import MachineRbi.Proofs.Toml.Plain
import MachineRbi.Services

/-!
# Settings that stop the program

A tolerant start takes a settings file that is no document for missing, and so a table or an option
of the wrong type (`Tolerates`). The program starts so exactly if the path of its settings file is
within the limits, every file nearer than the first document is legible, and the tables of that
document are tables (`tolerates_iff`). A number in the place of the table of all tools is one thing
that stops it (`not_tolerates_number`).
-/

namespace MachineRbi.Settings

variable {tree : FileTree} {directory : Location} {directories front : List Location}
  {workspace : Workspace} {document table entries : Entries} {value : Value}

/-! ## Tables in place of other values -/

/-- The value, if there is any, says nothing or is a table. -/
def SaysTable (value? : Option Value) : Prop :=
  ∀ value, value? = some value → value.isTruthy = true → value.entries?.isSome = true

/-- The entries of a table; another value counts as missing. -/
def entriesOf (value? : Option Value) : Entries :=
  (value?.bind Value.entries?).getD []

/-- The value of an option is of the type of the option. -/
def hasType (key : String) (value : Value) : Bool :=
  if key = "exclude_models" then value.items?.isSome
  else
    match value with
    | .scalar (.str _) => true
    | _ => false

/-- A table has a value of the wrong type under an option. -/
def isMistyped (table : Entries) (known : String) : Bool :=
  (table.get? known).any fun value => !hasType known value

/-- A table without the options of the wrong type. -/
def wellTyped (table : Entries) : Entries :=
  table.filter fun entry =>
    knownKeys.all fun known => !(entry.1 = .str known && isMistyped table known)

/-- The table of this tool in a document, where other values in the place of tables count as
missing. -/
def toolTable (document : Entries) : Entries :=
  entriesOf (Entries.get? (entriesOf (document.get? "tool")) "aasm-rbi")

/-- The table of all tools and that of this tool are tables, if they say anything. -/
structure IsUsable (document : Entries) : Prop where
  tools : SaysTable (document.get? "tool")
  tool : SaysTable (Entries.get? (entriesOf (document.get? "tool")) "aasm-rbi")

/-- A plain value that says nothing has no entries. -/
theorem entriesOf_of_not_truthy (hplain : value.IsPlain) (h : value.isTruthy = false) :
    entriesOf (some value) = [] := by
  cases hplain with
  | scalar => rfl
  | list => rfl
  | map =>
      rename_i entries _ _
      cases entries with
      | nil => rfl
      | cons => cases h

/-- Under a key of a plain table, a table or nothing is found as its entries. -/
theorem subtable_of_saysTable (hplain : table.IsPlain) {key : String}
    (h : SaysTable (table.get? key)) :
    subtable (.map table) key = .ok (.map (entriesOf (table.get? key))) ∧
      (entriesOf (table.get? key)).IsPlain := by
  have hsubtable : subtable (.map table) key =
      .ok (if (table.valueOf key).isTruthy then table.valueOf key else .map []) := rfl
  rw [hsubtable, Entries.valueOf]
  cases hget : table.get? key with
  | none => exact ⟨rfl, Entries.isPlain_nil⟩
  | some value =>
      have hvalue := hplain.get? hget
      rw [Option.getD_some]
      cases htruthy : value.isTruthy with
      | false =>
          rw [entriesOf_of_not_truthy hvalue htruthy]
          exact ⟨rfl, Entries.isPlain_nil⟩
      | true =>
          obtain ⟨entries, hentries⟩ := Option.isSome_iff_exists.mp (h value hget htruthy)
          obtain ⟨rfl, hplain⟩ := hvalue.eq_map hentries
          exact ⟨rfl, hplain⟩

/-- What is found under a key of a table is a table or nothing if it has entries. -/
theorem saysTable_of_subtable {key : String} {found : Value}
    (h : subtable (.map table) key = .ok found) (hfound : found.entries?.isSome = true) :
    SaysTable (table.get? key) := by
  intro value hget htruthy
  have hsubtable : subtable (.map table) key =
      .ok (if (table.valueOf key).isTruthy then table.valueOf key else .map []) := rfl
  rw [hsubtable, Entries.valueOf, hget, Option.getD_some, htruthy] at h
  cases h
  exact hfound

/-- Under a key of a table, what is found with entries has those of the value under the key. -/
theorem entriesOf_of_subtable (hplain : table.IsPlain) {key : String} {found : Value}
    (h : subtable (.map table) key = .ok found) (hfound : found.entries?.isSome = true) :
    found = .map (entriesOf (table.get? key)) := by
  have hsame := (subtable_of_saysTable hplain (saysTable_of_subtable h hfound)).1
  exact Except.ok.inj (h.symm.trans hsame)

/-- In a usable document the table of this tool is found. -/
theorem IsUsable.tableIn (h : IsUsable document) (hplain : document.IsPlain) :
    tableIn document = .ok (.map (toolTable document)) ∧ (toolTable document).IsPlain := by
  obtain ⟨htools, hplainTools⟩ := subtable_of_saysTable hplain h.tools
  obtain ⟨htool, hplainTool⟩ := subtable_of_saysTable hplainTools h.tool
  refine ⟨?_, hplainTool⟩
  rw [Settings.tableIn, htools]
  exact htool

/-- A document is usable if a table is found in it. -/
theorem isUsable_of_tableIn (hplain : document.IsPlain) {found : Value}
    (h : tableIn document = .ok found) (hfound : found.entries?.isSome = true) :
    IsUsable document := by
  obtain ⟨tools, htools, htool⟩ := bind_eq_ok_iff.mp h
  have hentries : tools.entries?.isSome = true := by
    unfold subtable at htool
    cases hentries : tools.entries? with
    | some entries => rfl
    | none =>
        rw [hentries] at htool
        cases htool
  rw [entriesOf_of_subtable hplain htools hentries] at htool
  exact ⟨saysTable_of_subtable htools hentries, saysTable_of_subtable htool hfound⟩

/-! ## Options -/

/-- Two texts are the same key only if they are equal. -/
theorem same_str_iff {key : Scalar} {text : WideText} :
    key.same (.str text) = true ↔ key = .str text := by
  cases key <;> simp [Scalar.same, Scalar.ratio?]

/-- Without the options of the wrong type, a table has no entry of an option if its first one is of
the wrong type, and the same first one otherwise. -/
theorem find?_wellTyped {known : String} (h : known ∈ knownKeys) :
    (wellTyped table).find? (fun entry => entry.1.same (.str known)) =
      table.find? fun entry => !isMistyped table known && entry.1.same (.str known) := by
  have hkeep : ∀ entry : Scalar × Value,
      ((knownKeys.all fun other => !(entry.1 = .str other && isMistyped table other)) &&
        entry.1.same (.str known)) = (!isMistyped table known && entry.1.same (.str known)) := by
    intro entry
    cases hsame : entry.1.same (.str known) with
    | false => simp
    | true =>
        have hkey := same_str_iff.mp hsame
        rw [Bool.and_true, Bool.and_true, hkey, Bool.eq_iff_iff, List.all_eq_true]
        constructor
        · intro hall
          simpa using hall known h
        · intro hknown other hother
          by_cases heq : (Scalar.str known) = .str other
          · have hshown := congrArg WideText.shown (Scalar.str.inj heq)
            rw [WideText.shown_ofString, WideText.shown_ofString] at hshown
            rw [← hshown]
            simpa using hknown
          · simp [heq]
  rw [wellTyped, List.find?_filter]
  congr 1
  funext entry
  rw [← hkeep entry, Bool.decide_and, Bool.decide_eq_true, Bool.decide_eq_true]

/-- Without the options of the wrong type, a table has under an option what it had there, if that is
of the right type. -/
theorem get?_wellTyped {known : String} (h : known ∈ knownKeys) :
    (wellTyped table).get? known = (table.get? known).filter (hasType known) := by
  have hget : (wellTyped table).get? known =
      (table.find? fun entry => !isMistyped table known && entry.1.same (.str known)).map (·.2) :=
    congrArg (Option.map Prod.snd) (find?_wellTyped h)
  have hsame : (table.find? fun entry => !false && entry.1.same (.str known)).map (·.2) =
      table.get? known := rfl
  rw [hget]
  cases hvalue : table.get? known with
  | none =>
      have hnone : isMistyped table known = false := by simp [isMistyped, hvalue]
      rw [hnone, hsame, hvalue]
      rfl
  | some value =>
      cases htype : hasType known value with
      | true =>
          have hright : isMistyped table known = false := by simp [isMistyped, hvalue, htype]
          rw [hright, hsame, hvalue, Option.filter_some, if_pos htype]
      | false =>
          have hwrong : isMistyped table known = true := by simp [isMistyped, hvalue, htype]
          rw [hwrong, Option.filter_some, if_neg (by simp [htype])]
          simp

/-- An option that is a text is read alike without the options of the wrong type. -/
theorem textOption_wellTyped {key : String} (h : key ∈ knownKeys) (hkey : key ≠ "exclude_models")
    (default : String) :
    textOption (wellTyped table) key default = textOption table key default := by
  rw [textOption, textOption, get?_wellTyped h]
  cases table.get? key with
  | none => rfl
  | some value =>
      rw [Option.filter_some]
      cases value with
      | scalar scalar => cases scalar <;> simp [hasType, hkey]
      | list | map | shared => simp [hasType, hkey]

/-- The options in a table are those in it without the options of the wrong type. -/
theorem ofEntries_wellTyped : ofEntries (wellTyped table) = ofEntries table := by
  have hexcluded : textsOption (wellTyped table) "exclude_models" =
      textsOption table "exclude_models" := by
    rw [textsOption, textsOption, get?_wellTyped (by decide)]
    cases table.get? "exclude_models" with
    | none => rfl
    | some value =>
        have htype : hasType "exclude_models" value = value.items?.isSome := rfl
        rw [Option.filter_some, htype]
        cases hitems : value.items? <;> simp [hitems]
  rw [ofEntries, ofEntries, textOption_wellTyped (by decide) (by decide),
    textOption_wellTyped (by decide) (by decide), textOption_wellTyped (by decide) (by decide),
    hexcluded]

/-! ## Notes about keys -/

/-- A scalar is put in order among others. -/
theorem mem_insertSorted {scalar other : Scalar} {scalars : List Scalar} :
    other ∈ Scalar.insertSorted scalar scalars ↔ other = scalar ∨ other ∈ scalars := by
  induction scalars with
  | nil => simp [Scalar.insertSorted]
  | cons first rest ih =>
      unfold Scalar.insertSorted
      split
      · simp
      · simp only [List.mem_cons, ih]
        exact or_left_comm

/-- Putting scalars in order keeps them. -/
theorem mem_sort {other : Scalar} {scalars : List Scalar} :
    other ∈ Scalar.sort scalars ↔ other ∈ scalars := by
  have hfold : ∀ sorted : List Scalar,
      other ∈ scalars.foldl (fun sorted scalar => Scalar.insertSorted scalar sorted) sorted ↔
        other ∈ sorted ∨ other ∈ scalars := by
    induction scalars with
    | nil => simp
    | cons first rest ih =>
        intro sorted
        rw [List.foldl_cons, ih, mem_insertSorted, List.mem_cons, or_assoc, or_left_comm]
  rw [Scalar.sort, hfold]
  simp

/-- Leaving out repetitions adds no scalar. -/
theorem mem_of_mem_distinct {other : Scalar} {scalars : List Scalar}
    (h : other ∈ Scalar.distinct scalars) : other ∈ scalars := by
  have hfold : ∀ kept : List Scalar,
      other ∈ scalars.foldl (fun kept scalar =>
        if kept.any (·.same scalar) then kept else kept ++ [scalar]) kept →
        other ∈ kept ∨ other ∈ scalars := by
    clear h
    induction scalars with
    | nil => simp
    | cons first rest ih =>
        intro kept hmem
        rcases ih _ hmem with hkept | hrest
        · dsimp only at hkept
          split at hkept
          · exact .inl hkept
          · rcases List.mem_append.mp hkept with hkept | hfirst
            · exact .inl hkept
            · exact .inr (List.mem_cons.mpr (.inl (List.mem_singleton.mp hfirst)))
        · exact .inr (List.mem_cons_of_mem _ hrest)
  simpa using hfold [] h

/-- Texts can be put in order with each other. -/
theorem areOrdered_of_texts {scalars : List Scalar}
    (h : ∀ scalar ∈ scalars, ∃ text, scalar = .str text) : Scalar.areOrdered scalars = true := by
  have hclass : ∀ scalar ∈ scalars, scalar.orderClass? = some .text := by
    intro scalar hmem
    obtain ⟨text, rfl⟩ := h scalar hmem
    rfl
  unfold Scalar.areOrdered
  split
  next => rfl
  next => rfl
  next first rest _ =>
    rw [hclass first List.mem_cons_self]
    simp only [Option.isSome_some, Bool.true_and, List.all_eq_true, decide_eq_true_eq]
    exact fun other hmem => hclass other (List.mem_cons_of_mem _ hmem)

/-- A plain table is read, whatever its keys are. -/
theorem read_of_isPlain (hplain : table.IsPlain) :
    (read (.map table)).1 = .ok (ofEntries table) := by
  have htexts : ∀ scalar ∈ Scalar.sort ((Scalar.distinct (table.map (·.1))).filter fun key =>
      knownKeys.all fun known => key ≠ .str known), ∃ text, scalar = .str text := by
    intro scalar hmem
    have hkey := mem_of_mem_distinct (List.mem_filter.mp (mem_sort.mp hmem)).1
    obtain ⟨entry, hentry, rfl⟩ := List.mem_map.mp hkey
    exact hplain.keys entry hentry
  have hwarnings : ∃ records, warnings (.map table) = .ok records := by
    unfold warnings
    split
    next => exact ⟨[], rfl⟩
    next =>
      have hkeys : keysOf (.map table) = .ok (table.map (·.1)) := rfl
      have hordered := areOrdered_of_texts fun scalar hmem => htexts scalar (mem_sort.mpr hmem)
      simp only [hkeys, bind, Except.bind, hordered, if_true]
      refine exists_mapM_eq_ok_iff.mpr fun scalar hmem => ?_
      obtain ⟨text, rfl⟩ := htexts scalar hmem
      exact ⟨_, rfl⟩
  obtain ⟨records, hrecords⟩ := hwarnings
  rw [read, hrecords]
  rfl

/-! ## Starting -/

section

variable [Stack]

/-- The directories nearer than the first one with a document. -/
def nearer (tree : FileTree) (directories : List Location) : List Location :=
  directories.takeWhile fun directory => (documentIn? tree directory).isNone

/-- The document of the first directory that has one. -/
def nearest? (tree : FileTree) (directories : List Location) : Option Entries :=
  directories.findSome? (documentIn? tree)

/-- The program starts with the options of the nearest document, where tables and options of the
wrong type count as missing, and notes every nearer file. -/
structure Tolerates (workspace : Workspace) : Prop where
  services : (Services.start workspace).1 =
    .ok ⟨ofEntries (wellTyped (toolTable
      ((nearest? workspace.tree (upward workspace.here)).getD []))), Services.defaults⟩
  notes : unreadRecords workspace.tree (nearer workspace.tree (upward workspace.here)) <+:
    (Services.start workspace).2

/-- The settings can be looked at, the files nearer than the first document are legible, and the
tables of that document are tables. -/
structure Usable (workspace : Workspace) : Prop where
  within : Path.WithinLimits ⟨.root, workspace.here ++ [fileName]⟩
  legible : ∀ directory ∈ nearer workspace.tree (upward workspace.here),
    IsLegible workspace.tree directory
  document : ∀ document, nearest? workspace.tree (upward workspace.here) = some document →
    IsUsable document

/-- No directory nearer than the first one with a document has one. -/
theorem documentIn?_of_mem_nearer (h : directory ∈ nearer tree directories) :
    documentIn? tree directory = none := by
  simpa using List.mem_takeWhile_imp h

/-- Either no directory has a document, or the first one that has comes behind the nearer ones. -/
theorem nearest?_cases (tree : FileTree) (directories : List Location) :
    nearest? tree directories = none ∧ nearer tree directories = directories ∨
      ∃ directory back document, nearest? tree directories = some document ∧
        directories = nearer tree directories ++ directory :: back ∧
        documentIn? tree directory = some document := by
  induction directories with
  | nil => exact .inl ⟨rfl, rfl⟩
  | cons first rest ih =>
      unfold nearest? nearer
      cases hfirst : documentIn? tree first with
      | some document => exact .inr ⟨first, rest, document, by simp [hfirst], by simp [hfirst]⟩
      | none =>
          rw [List.findSome?_cons_of_isNone (by simp [hfirst]),
            List.takeWhile_cons_of_pos (by simp [hfirst])]
          rcases ih with ⟨hnone, hall⟩ | ⟨directory, back, document, hsome, hsplit, hdocument⟩
          · exact .inl ⟨hnone, congrArg (first :: ·) hall⟩
          · exact .inr ⟨directory, back, document, hsome, congrArg (first :: ·) hsplit, hdocument⟩

/-- The document of a directory is plain. -/
theorem isPlain_of_documentIn? (h : documentIn? tree directory = some document) :
    document.IsPlain := by
  unfold documentIn? at h
  split at h
  next bytes _ =>
    unfold documentOf at h
    split at h
    next => cases h
    next text _ =>
      cases hparse : Toml.parse text with
      | ok found =>
          rw [hparse] at h
          cases h
          exact Toml.isPlain_parse hparse
      | error fault =>
          rw [hparse] at h
          cases fault <;> cases h
  next => cases h

/-- A search that finds something has passed only legible directories. -/
theorem legible_of_searchIn {rest : List Location} {found : Value}
    (hsees : ∀ directory ∈ front, Sees workspace directory)
    (hnone : ∀ directory ∈ front, documentIn? workspace.tree directory = none)
    (h : (searchIn workspace (front ++ rest)).1 = .ok found) :
    ∀ directory ∈ front, IsLegible workspace.tree directory := by
  induction front with
  | nil => simp
  | cons directory others ih =>
      have hdocument := hnone directory List.mem_cons_self
      have hothers := ih (fun other hmem => hsees other (List.mem_cons_of_mem _ hmem))
        (fun other hmem => hnone other (List.mem_cons_of_mem _ hmem))
      rw [List.cons_append, searchIn_cons (hsees directory List.mem_cons_self)] at h
      rw [List.forall_mem_cons, isLegible_iff]
      unfold documentIn? at hdocument
      cases hentry : entryIn workspace.tree directory with
      | none =>
          rw [hentry] at h
          exact ⟨fun bytes hfile => by simp at hfile, hothers h⟩
      | some entry =>
          cases entry with
          | directory =>
              rw [hentry] at h
              exact ⟨fun bytes hfile => by simp at hfile, hothers h⟩
          | file bytes =>
              rw [hentry] at h hdocument
              cases hbytes : documentOf bytes with
              | error failure => simp [hbytes] at h
              | ok document? =>
                  have hmissing : document? = none := by
                    simpa [hbytes, Except.toOption] using hdocument
                  simp only [hbytes, hmissing] at h
                  refine ⟨fun other hfile => ?_, hothers h⟩
                  cases hfile
                  exact ⟨document?, hbytes⟩

/-- The program starts with what is read from the table that is found. -/
theorem start_of_search {found : Value} {records : List LogRecord}
    (h : search workspace Path.here = (.ok found, records)) :
    Services.start workspace =
      (((read found).1.mapError Failure.settings).map fun settings => ⟨settings, Services.defaults⟩,
        records ++ (read found).2) := by
  simp only [Services.start, Services.loadSettings, h]

/-- A search that fails stops the program. -/
theorem start_of_search_error {failure : Failure} {records : List LogRecord}
    (h : search workspace Path.here = (.error failure, records)) :
    Services.start workspace = (.error failure, records) := by
  simp only [Services.start, Services.loadSettings, h]
  rfl

/-- A program that starts has found a table. -/
theorem search_of_start {services : Services} {records : List LogRecord}
    (h : Services.start workspace = (.ok services, records)) :
    ∃ found notes, search workspace Path.here = (.ok found, notes) := by
  cases hsearch : search workspace Path.here with
  | mk result notes =>
      cases result with
      | ok found => exact ⟨found, notes, rfl⟩
      | error failure =>
          rw [start_of_search_error hsearch] at h
          cases h

/-- A search from the working directory that finds something is within the limits. -/
theorem within_of_search {found : Value} {notes : List LogRecord} (hclosed : workspace.Closed)
    (hhere : Location.IsProper workspace.here)
    (h : search workspace Path.here = (.ok found, notes)) :
    Path.WithinLimits ⟨.root, workspace.here ++ [fileName]⟩ := by
  by_contra hlong
  rw [search_of_long hclosed.tree hhere hlong hclosed.resolve_here hclosed.here] at h
  cases h

omit [Stack] in
/-- Only what has entries is read. -/
theorem entries?_isSome_of_read {found : Value} {settings : Settings}
    (h : (read found).1 = .ok settings) : found.entries?.isSome = true := by
  unfold read at h
  split at h
  next => cases h
  next =>
    unfold ofTable at h
    split at h
    next entries hentries => simp [hentries]
    next => cases h

/-- From the plain table of a document the program starts with its options. -/
theorem start_of_table {records : List LogRecord} (hplain : table.IsPlain)
    (h : search workspace Path.here = (.ok (.map table), records)) :
    (Services.start workspace).1 = .ok ⟨ofEntries (wellTyped table), Services.defaults⟩ ∧
      records <+: (Services.start workspace).2 := by
  rw [start_of_search h, read_of_isPlain hplain, ofEntries_wellTyped]
  exact ⟨rfl, List.prefix_append _ _⟩

/-- Settings that the program tolerates are usable. -/
theorem usable_of_tolerates (hclosed : workspace.Closed)
    (hhere : Location.IsProper workspace.here) (h : Tolerates workspace) : Usable workspace := by
  have hstart := hclosed.resolve_here
  obtain ⟨found, records, hsearch⟩ := search_of_start (Prod.ext h.services rfl)
  have hread : found.entries?.isSome = true := by
    have hservices := h.services
    rw [start_of_search hsearch] at hservices
    obtain ⟨settings, hsettings, -⟩ := map_eq_ok_iff.mp hservices
    cases hfound : (read found).1 with
    | ok settings => exact entries?_isSome_of_read hfound
    | error fault =>
        rw [hfound] at hsettings
        cases hsettings
  have hwithin := within_of_search hclosed hhere hsearch
  have hsees := sees_of_mem_upward hclosed.tree hhere hwithin
  have hlegible : ∀ directory ∈ nearer workspace.tree (upward workspace.here),
      IsLegible workspace.tree directory := by
    obtain ⟨rest, hrest⟩ : nearer workspace.tree (upward workspace.here) <+:
        upward workspace.here := List.takeWhile_prefix _
    have hfound := hsearch
    rw [search_eq hstart, ← hrest] at hfound
    exact legible_of_searchIn
      (fun directory hmem => hsees directory ((List.takeWhile_prefix _).subset hmem))
      (fun directory hmem => documentIn?_of_mem_nearer hmem) (congrArg Prod.fst hfound)
  refine ⟨hwithin, hlegible, fun document hdocument => ?_⟩
  rcases nearest?_cases workspace.tree (upward workspace.here) with
    ⟨hnone, -⟩ | ⟨directory, back, other, hsome, hsplit, hother⟩
  · cases hnone.symm.trans hdocument
  · cases hsome.symm.trans hdocument
    have hdecides := search_of_document hclosed.tree hhere hwithin hstart hsplit hlegible
      (fun directory hmem => documentIn?_of_mem_nearer hmem) hother
    have htable : (tableIn document).mapError Failure.settings = .ok found :=
      congrArg Prod.fst (hdecides.symm.trans hsearch)
    cases hin : tableIn document with
    | error fault =>
        rw [hin] at htable
        cases htable
    | ok inner =>
        rw [hin] at htable
        cases htable
        exact isUsable_of_tableIn (isPlain_of_documentIn? hother) hin hread

/-- The program tolerates settings that are usable. -/
theorem tolerates_of_usable (hclosed : workspace.Closed)
    (hhere : Location.IsProper workspace.here) (h : Usable workspace) : Tolerates workspace := by
  have hstart := hclosed.resolve_here
  rcases nearest?_cases workspace.tree (upward workspace.here) with
    ⟨hnone, hall⟩ | ⟨directory, back, document, hsome, hsplit, hdocument⟩
  · have hlegible := h.legible
    rw [hall] at hlegible
    have hsearch := search_of_none hclosed.tree hhere h.within hstart hlegible
      fun directory hmem => documentIn?_of_mem_nearer (by rwa [hall])
    have ⟨hservices, hnotes⟩ := start_of_table Entries.isPlain_nil hsearch
    refine ⟨?_, by rwa [hall]⟩
    rw [hservices, hnone]
    rfl
  · have hsearch := search_of_document hclosed.tree hhere h.within hstart hsplit h.legible
      (fun directory hmem => documentIn?_of_mem_nearer hmem) hdocument
    obtain ⟨htable, hplain⟩ :=
      (h.document document hsome).tableIn (isPlain_of_documentIn? hdocument)
    rw [htable] at hsearch
    have ⟨hservices, hnotes⟩ := start_of_table hplain hsearch
    refine ⟨?_, (List.prefix_append _ _).trans hnotes⟩
    rw [hservices, hsome]
    rfl

/-- The program tolerates its settings exactly if they are usable. -/
theorem tolerates_iff (hclosed : workspace.Closed) (hhere : Location.IsProper workspace.here) :
    Tolerates workspace ↔ Usable workspace :=
  ⟨usable_of_tolerates hclosed hhere, tolerates_of_usable hclosed hhere⟩

/-! ## A single settings file -/

/-- A working directory at the root with nothing but a settings file of this text. -/
def projectOf (text : String) : Workspace :=
  ⟨FileTree.place .empty [fileName] (.file text.toUTF8), []⟩

omit [Stack] in
/-- The working directory has the file. -/
theorem entryIn_projectOf (text : String) :
    entryIn (projectOf text).tree [] = some (.file text.toUTF8) :=
  (FileTree.entry?_set _ _ _ _ (by simp)).trans (if_pos rfl)

omit [Stack] in
/-- The workspace with a single settings file is closed, and its working directory is proper. -/
theorem projectOf_closed (text : String) :
    (projectOf text).Closed ∧ Location.IsProper (projectOf text).here := by
  refine ⟨⟨FileTree.closed_empty.place (by simp) ?_ _, rfl⟩, fun _ hmem => nomatch hmem⟩
  have hempty : FileTree.empty.entry? [fileName] = none := FileTree.entry?_empty (by simp)
  exact fun h => nomatch hempty.symm.trans h

/-- The document in a single settings file is the nearest one. -/
theorem nearest?_projectOf {text : String} {document : Entries}
    (h : Toml.parse text = .ok document) :
    nearest? (projectOf text).tree (upward (projectOf text).here) = some document ∧
      nearer (projectOf text).tree (upward (projectOf text).here) = [] := by
  have hdocument : documentIn? (projectOf text).tree [] = some document := by
    rw [documentIn?, entryIn_projectOf]
    simp only [documentOf_toUTF8 h]
    rfl
  have hupward : upward (projectOf text).here = [[]] := rfl
  rw [nearest?, nearer, hupward]
  simp [hdocument]

end

open scoped Stack

/-- An option of the wrong type is tolerated. -/
theorem tolerates_iff_mistyped :
    Tolerates (projectOf "[tool.aasm-rbi]\nmanifest = 1\n") := by
  have hparse : Toml.parse "[tool.aasm-rbi]\nmanifest = 1\n" =
      .ok (single (.int 1) [.str "tool", .str "aasm-rbi", .str "manifest"]) :=
    parse_of_isSingle (by decide +kernel)
  obtain ⟨hclosed, hhere⟩ := projectOf_closed "[tool.aasm-rbi]\nmanifest = 1\n"
  obtain ⟨hnearest, hnearer⟩ := nearest?_projectOf hparse
  refine (tolerates_iff hclosed hhere).mpr ⟨⟨?_, ?_⟩, ?_, ?_⟩
  · decide +kernel
  · decide
  · rw [hnearer]
    exact fun directory hmem => nomatch hmem
  · rw [hnearest]
    rintro document h
    cases h
    constructor
    · rintro value h -
      cases h
      rfl
    · rintro value h -
      cases h
      rfl

/-- A number in the place of the table of all tools is not tolerated. -/
theorem not_tolerates_number : ¬ Tolerates (projectOf "tool = 1\n") := by
  intro h
  obtain ⟨hclosed, hhere⟩ := projectOf_closed "tool = 1\n"
  have hparse : Toml.parse "tool = 1\n" = .ok (single (.int 1) [.str "tool"]) :=
    parse_of_isSingle (by decide +kernel)
  obtain ⟨hnearest, -⟩ := nearest?_projectOf hparse
  have htools := ((usable_of_tolerates hclosed hhere h).document _ hnearest).tools
  cases htools (.scalar (.int 1)) rfl rfl

end MachineRbi.Settings
