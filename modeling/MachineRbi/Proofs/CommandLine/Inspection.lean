import MachineRbi.Proofs.CommandLine.Listing
import MachineRbi.Proofs.Json.Reader
import MachineRbi.Proofs.Json.Rendering

/-!
# Inspections read back

A session of `inspect` that shows declarations as JSON writes one document, and a standard reader
finds the declarations of the model in it, field by field (`run_inspect_json`). The names come back
joined: where the halves of a pair stand in a name one directly before the other, the reader finds
the character that they make. All else is lossless, so exactly the names that keep their halves
apart come back as they are.
-/

namespace MachineRbi

/-! ## Declarations from documents -/

namespace Json

/-- The value of the first field of this name. -/
def field? (document : Json) (name : String) : Option Json :=
  match document with
  | .obj fields => fields.lookup name
  | _ => none

/-- The items of an array. -/
def items? : Json → Option (List Json)
  | .arr items => some items
  | _ => none

/-- The value of a text. -/
def text? : Json → Option WideText
  | .str text => some text
  | _ => none

/-- The value of a truth value. -/
def flag? : Json → Option Bool
  | .bool value => some value
  | _ => none

/-- The value of a text without halves. -/
def string? (document : Json) : Option String :=
  document.text?.bind WideText.string?

/-- A type, or that there is none. -/
def type? : Json → Option (Option String)
  | .null => some none
  | document => document.string?.map some

end Json

/-- The parameter that a document describes. -/
def Parameter.ofJson? (document : Json) : Option Parameter := do
  let name ← (← document.field? "name").string?
  let type? ← (← document.field? "type").type?
  let splat ← (← document.field? "variadic_keyword_capture").flag?
  return { name, type?, splat }

/-- The declaration that a document describes. -/
def Declaration.ofJson? (document : Json) : Option Declaration := do
  let name ← (← document.field? "name").text?
  let returnType? ← (← document.field? "return_type").type?
  let parameters ← (← (← document.field? "parameters").items?).mapM Parameter.ofJson?
  return { name, returnType?, parameters }

/-- The declarations that a document describes, in order. -/
def declarationsOf? (document : Json) : Option (List Declaration) :=
  document.items?.bind (·.mapM Declaration.ofJson?)

/-- The declaration with the halves of its name joined. -/
def Declaration.joined (declaration : Declaration) : Declaration :=
  { declaration with name := declaration.name.joined }

namespace CommandLine

/-- A written list is read as the list if each element is. -/
theorem mapM_map_eq_some {α β : Type} {write : α → β} {read? : β → Option α}
    (h : ∀ element, read? (write element) = some element) (elements : List α) :
    (elements.map write).mapM read? = some elements := by
  induction elements with
  | nil => rfl
  | cons element rest ih => simp [h, ih]

/-- A type comes back from its document. -/
@[simp] theorem type?_jsonType (type? : Option String) : (jsonType type?).type? = some type? := by
  cases type? with
  | none => rfl
  | some type => simp [jsonType, Json.type?, Json.string?, Json.text?]

/-- A parameter comes back from its document. -/
theorem ofJson?_jsonParameter (parameter : Parameter) :
    Parameter.ofJson? (jsonParameter parameter) = some parameter := by
  simp [Parameter.ofJson?, jsonParameter, Json.field?, Json.string?, Json.text?, Json.flag?,
    List.lookup_cons]

/-- A declaration comes back from its document. -/
theorem ofJson?_jsonDeclaration (declaration : Declaration) :
    Declaration.ofJson? (jsonDeclaration declaration) = some declaration := by
  simp [Declaration.ofJson?, jsonDeclaration, Json.field?, Json.text?, Json.items?,
    List.lookup_cons, mapM_map_eq_some ofJson?_jsonParameter]

/-- The document of declarations. -/
def jsonDeclarations (declarations : List Declaration) : Json :=
  .arr (declarations.map jsonDeclaration)

/-- Declarations come back from their document, in order. -/
theorem declarationsOf?_jsonDeclarations (declarations : List Declaration) :
    declarationsOf? (jsonDeclarations declarations) = some declarations :=
  mapM_map_eq_some ofJson?_jsonDeclaration declarations

/-! ## Joined declarations -/

/-- A type has no halves to join. -/
@[simp] theorem joined_jsonType (type? : Option String) :
    (jsonType type?).joined = jsonType type? := by
  cases type? with
  | none => rfl
  | some type => simp [jsonType, Json.joined]

/-- A parameter has no halves to join. -/
@[simp] theorem joined_jsonParameter (parameter : Parameter) :
    (jsonParameter parameter).joined = jsonParameter parameter := by
  simp [jsonParameter, Json.joined, Json.joinedFields]

/-- To join a declaration is to join its name. -/
theorem joined_jsonDeclaration (declaration : Declaration) :
    (jsonDeclaration declaration).joined = jsonDeclaration declaration.joined := by
  simp [jsonDeclaration, Json.joined, Json.joinedFields, Json.joinedItems_eq_map,
    Declaration.joined, Function.comp_def]

/-- To join declarations is to join each of them. -/
theorem joined_jsonDeclarations (declarations : List Declaration) :
    (jsonDeclarations declarations).joined =
      jsonDeclarations (declarations.map Declaration.joined) := by
  simp [jsonDeclarations, Json.joined, Json.joinedItems_eq_map, joined_jsonDeclaration,
    Function.comp_def]

/-- Joining changes no declaration exactly if the halves in all names are kept apart. -/
theorem map_joined_eq_self_iff {declarations : List Declaration} :
    declarations.map Declaration.joined = declarations ↔
      ∀ declaration ∈ declarations, WideText.KeepsApart declaration.name.points := by
  have hone : ∀ declaration : Declaration, declaration.joined = declaration ↔
      WideText.KeepsApart declaration.name.points := by
    intro declaration
    rw [← WideText.joined_eq_self_iff]
    exact ⟨congrArg Declaration.name, fun h => by rw [Declaration.joined, h]⟩
  have hmap : declarations.map Declaration.joined = declarations.map id ↔
      ∀ declaration ∈ declarations, declaration.joined = declaration := List.map_inj_left
  simpa only [List.map_id, hone] using hmap

/-! ## Distinct names -/

/-- The document of a type has no fields. -/
theorem hasDistinctNames_jsonType (type? : Option String) :
    (jsonType type?).HasDistinctNames := by
  cases type? with
  | none => exact .null
  | some type => exact .str type

/-- The fields of a parameter have distinct names. -/
theorem hasDistinctNames_jsonParameter (parameter : Parameter) :
    (jsonParameter parameter).HasDistinctNames := by
  refine .obj (by simp) ?_
  simp only [List.forall_mem_cons]
  exact ⟨.str _, hasDistinctNames_jsonType _, .bool _, List.forall_mem_nil _⟩

/-- The fields of declarations have distinct names. -/
theorem hasDistinctNames_jsonDeclarations (declarations : List Declaration) :
    (jsonDeclarations declarations).HasDistinctNames := by
  refine .arr (List.forall_mem_map.mpr fun declaration _ => .obj (by simp) ?_)
  have hparameters : ∀ document ∈ declaration.parameters.map jsonParameter,
      document.HasDistinctNames :=
    List.forall_mem_map.mpr fun parameter _ => hasDistinctNames_jsonParameter parameter
  simp only [List.forall_mem_cons]
  exact ⟨.str _, hasDistinctNames_jsonType _, .arr hparameters, List.forall_mem_nil _⟩

/-! ## Documents read back -/

/-- What a stream takes for declarations is a text of the document of them, joined. -/
theorem spellsPadded_declarations (declarations : List Declaration) :
    (jsonDeclarations (declarations.map Declaration.joined)).SpellsPadded
      (printed (jsonDeclarations declarations).render).toList := by
  rw [← joined_jsonDeclarations]
  exact Json.spellsPadded_printed (jsonDeclarations declarations)

/-- A standard reader finds the declarations in what a stream takes for them, with their names
joined. -/
theorem declarationsOf?_printed {read : String → Option Json} (hread : Json.IsStandardReader read)
    (declarations : List Declaration) :
    (read (printed (jsonDeclarations declarations).render)).bind declarationsOf? =
      some (declarations.map Declaration.joined) := by
  rw [hread _ _ (hasDistinctNames_jsonDeclarations _) (spellsPadded_declarations declarations)]
  exact declarationsOf?_jsonDeclarations _

/-! ## Sessions -/

namespace Session

variable {workspace : Workspace} {noColor? manifest? : Option String} {sink : Sink}
  {words : List String} {model : String} {verbose : Bool}

section

variable [Stack]

/-- A session of `inspect` that has its answer writes the document of the declarations. -/
theorem run_inspect_of_answer {services : Services} {records : List LogRecord}
    {set : DeclarationSet}
    (hwords : Request.parse words = .perform (.inspect model manifest? true verbose))
    (hstart : Services.start workspace = (.ok services, records))
    (hanswer : (registryFor services manifest?).answer workspace (·.inspect {} model) = .ok set) :
    let session := run workspace noColor? sink words
    session.ending = .exit 0 ∧
      session.output.out = printed (jsonDeclarations set.declarations).render := by
  intro session
  have hsession : session = _ := run_eq_execute hstart hwords
  rw [execute, hanswer] at hsession
  rw [hsession]
  -- The one line is of characters, so every output stream takes it.
  have htaken : ∀ line ∈ declarationLines true set, sink.takes line = true := by
    simp [declarationLines]
  refine ⟨query_ending_of_taken _ workspace htaken none, ?_⟩
  rw [after_early_out]
  refine (query_out _ sink workspace (declarationLines true set) none).trans ?_
  rw [List.takeWhile_eq_self_iff.mpr htaken]
  simp [declarationLines, jsonDeclarations]

/-- A session of `inspect` that exits with 0 has its answer. -/
theorem answer_of_run_inspect {json : Bool}
    (hwords : Request.parse words = .perform (.inspect model manifest? json verbose))
    (hending : (run workspace noColor? sink words).ending = .exit 0) :
    ∃ services records set, Services.start workspace = (.ok services, records) ∧
      (registryFor services manifest?).answer workspace (·.inspect {} model) = .ok set := by
  cases hstart : Services.start workspace with
  | mk found records =>
      cases found with
      | error failure =>
          rw [run, hstart] at hending
          cases hending
      | ok services =>
          have hsession : run workspace noColor? sink words = _ := run_eq_execute hstart hwords
          rw [execute] at hsession
          cases hanswer : (registryFor services manifest?).answer workspace
              (·.inspect {} model) with
          | error failure =>
              rw [hsession, hanswer] at hending
              exact absurd hending (showFailure_out _ failure).2
          | ok set => exact ⟨services, records, set, rfl, hanswer⟩

/-- A session of `inspect` that exits with 0 has written one JSON document, in which every standard
reader finds the declarations of the model in order, with their names joined. It finds the
declarations themselves exactly if their names keep the halves of pairs apart. -/
theorem run_inspect_json
    (hwords : Request.parse words = .perform (.inspect model manifest? true verbose))
    (hending : (run workspace noColor? sink words).ending = .exit 0) :
    ∃ services records set, Services.start workspace = (.ok services, records) ∧
      (registryFor services manifest?).answer workspace (·.inspect {} model) = .ok set ∧
      let text := (run workspace noColor? sink words).output.out
      (∃ document : Json, document.HasDistinctNames ∧ document.SpellsPadded text.toList) ∧
      ∀ read, Json.IsStandardReader read →
        (read text).bind declarationsOf? = some (set.declarations.map Declaration.joined) ∧
        ((read text).bind declarationsOf? = some set.declarations ↔
          ∀ declaration ∈ set.declarations, WideText.KeepsApart declaration.name.points) := by
  obtain ⟨services, records, set, hstart, hanswer⟩ := answer_of_run_inspect hwords hending
  refine ⟨services, records, set, hstart, hanswer, ?_⟩
  rw [(run_inspect_of_answer hwords hstart hanswer).2]
  refine ⟨⟨_, hasDistinctNames_jsonDeclarations _, spellsPadded_declarations set.declarations⟩,
    fun read hread => ?_⟩
  have hfound := declarationsOf?_printed hread set.declarations
  refine ⟨hfound, ?_⟩
  rw [hfound, Option.some_inj, map_joined_eq_self_iff]

/-- Files with a manifest that lists a lamp with one state, written as in the text. -/
def lampWorkspace (state : String) : Workspace :=
  ⟨FileTree.empty.place ["sorbet", "aasm_manifest.yml"] (.file
    ("models:\n  Lamp:\n    state_machines:\n      main:\n        states: [" ++ state ++
      "]\n").toUTF8), []⟩

/-- The code points of the names of the declarations of the lamp, if they can be found. -/
def lampNames? (workspace : Workspace) : Option (List (List Nat)) :=
  (Services.start workspace).1.toOption.bind fun services =>
    ((registryFor services none).answer workspace (·.inspect {} "Lamp")).toOption.map
      fun set => set.names.map WideText.points

/-- Names that can be found stand in the answer about the lamp. -/
theorem answer_of_lampNames? {names : List (List Nat)} (h : lampNames? workspace = some names) :
    ∃ services records set, Services.start workspace = (.ok services, records) ∧
      (registryFor services none).answer workspace (·.inspect {} "Lamp") = .ok set ∧
      set.names.map WideText.points = names := by
  have hfound : ∀ {α : Type} {result : Except Failure α} {value : α},
      result.toOption = some value → result = .ok value := by
    intro α result value hvalue
    cases result with
    | error failure => cases hvalue
    | ok found => exact congrArg Except.ok (Option.some.inj hvalue)
  obtain ⟨services, hservices, hmap⟩ := Option.bind_eq_some_iff.mp h
  obtain ⟨set, hset, hnames⟩ := Option.map_eq_some_iff.mp hmap
  exact ⟨services, (Services.start workspace).2, set, Prod.ext (hfound hservices) rfl,
    hfound hset, hnames⟩

end

open scoped Stack

/-- A state with a character beyond the basic plane, a quote and an escape is read back. -/
theorem run_inspect_json_lamp :
    let workspace := lampWorkspace "\"\\U0001F600\\\"\\e\""
    let session := run workspace none .bytes ["inspect", "Lamp", "--json"]
    session.ending = .exit 0 ∧ ∃ services records set,
      Services.start workspace = (.ok services, records) ∧
      (registryFor services none).answer workspace (·.inspect {} "Lamp") = .ok set ∧
      (Json.read? session.output.out).bind declarationsOf? = some set.declarations := by
  intro workspace session
  have hwords : Request.parse ["inspect", "Lamp", "--json"] =
      .perform (.inspect "Lamp" none true false) := by decide +kernel
  have hfound : lampNames? workspace = some [[0x1F600, 34, 27, 63]] := by decide +kernel
  obtain ⟨_, _, _, hbegin, hlamp, -⟩ := answer_of_lampNames? hfound
  have hending : session.ending = .exit 0 := (run_inspect_of_answer hwords hbegin hlamp).1
  obtain ⟨services, records, set, hstart, hanswer, -, hread⟩ := run_inspect_json hwords hending
  refine ⟨hending, services, records, set, hstart, hanswer, ?_⟩
  refine (hread Json.read? Json.isStandardReader_read?).2.mpr ?_
  have hnames : set.names.map WideText.points = [[0x1F600, 34, 27, 63]] := by
    simpa [lampNames?, hstart, hanswer, Except.toOption] using hfound
  have hapart : ∀ points ∈ set.names.map WideText.points, WideText.KeepsApart points := by
    rw [hnames, List.forall_mem_singleton]
    exact WideText.joinPairs_eq_self_iff.mp (by decide)
  simpa only [DeclarationSet.names, List.forall_mem_map] using hapart

/-- A state of two halves that are code points of their own comes back from no standard reader. -/
theorem not_read_inspected_halves :
    let workspace := lampWorkspace "\"\\ud83d\\ude00\""
    let session := run workspace none .bytes ["inspect", "Lamp", "--json"]
    session.ending = .exit 0 ∧ ∃ services records set,
      Services.start workspace = (.ok services, records) ∧
      (registryFor services none).answer workspace (·.inspect {} "Lamp") = .ok set ∧
      ∀ read, Json.IsStandardReader read →
        (read session.output.out).bind declarationsOf? ≠ some set.declarations := by
  intro workspace session
  have hwords : Request.parse ["inspect", "Lamp", "--json"] =
      .perform (.inspect "Lamp" none true false) := by decide +kernel
  have hfound : lampNames? workspace = some [[0xD83D, 0xDE00, 63]] := by decide +kernel
  obtain ⟨services, records, set, hstart, hanswer, hnames⟩ := answer_of_lampNames? hfound
  obtain ⟨hending, hout⟩ := run_inspect_of_answer hwords hstart hanswer
  refine ⟨hending, services, records, set, hstart, hanswer, fun read hread hback => ?_⟩
  have hjoined : set.declarations.map Declaration.joined = set.declarations := by
    rw [hout, declarationsOf?_printed hread] at hback
    exact Option.some_inj.mp hback
  -- The only name has a first half directly before a last half.
  have hapart : ∀ points ∈ set.names.map WideText.points, WideText.KeepsApart points := by
    simp only [DeclarationSet.names, List.forall_mem_map]
    exact map_joined_eq_self_iff.mp hjoined
  rw [hnames] at hapart
  have hhalves := WideText.joinPairs_eq_self_iff.mpr (hapart _ List.mem_cons_self)
  exact absurd hhalves (by decide)

end Session

end CommandLine

end MachineRbi
