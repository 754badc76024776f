import MachineRbi.Proofs.Files.Reading
import MachineRbi.Proofs.Rbi.Acceptance

/-!
# Reading interface files back

An emitted text tells what it was made from. Its header tells the id although that may end in a
line break (`modelId_eq_of_unified`), its lines tell the declarations if no name has a line break,
and the declarations of state machines tell their items.
-/

namespace MachineRbi.Rbi

/-- Where a text leaves the characters of a kind for the first time, it can be cut. -/
theorem cut_at {p : Char → Bool} {front front' back back' : List Char} {c c' : Char}
    (hfront : ∀ d ∈ front, p d = true) (hfront' : ∀ d ∈ front', p d = true)
    (hc : p c = false) (hc' : p c' = false) (h : front ++ c :: back = front' ++ c' :: back') :
    front = front' ∧ c = c' ∧ back = back' := by
  -- Both cuts are where the longest beginning of that kind ends.
  have hkind := congrArg (List.takeWhile p) h
  rw [List.takeWhile_append_of_pos hfront, List.takeWhile_append_of_pos hfront',
    List.takeWhile_cons_of_neg (by simp [hc]), List.takeWhile_cons_of_neg (by simp [hc']),
    List.append_nil, List.append_nil] at hkind
  rw [hkind] at h
  obtain ⟨hsame, hback⟩ := List.cons.inj (List.append_cancel_left h)
  exact ⟨hkind, hsame, hback⟩

/-! ## Headers -/

/-- Accepted paths of constants that show as the same characters are the same. -/
theorem eq_of_isConstantPath {a b : WideText} (ha : isConstantPath a = true)
    (hb : isConstantPath b = true) (h : a.chars = b.chars) : a = b := by
  have hreplacement : isPathPart '\uFFFD' = false := by decide
  rw [WideText.eq_ofChars (not_mem_of_isConstantPath ha hreplacement (by decide)),
    WideText.eq_ofChars (not_mem_of_isConstantPath hb hreplacement (by decide)), h]

/-- An emitted text says the id behind a lead of its own and before a line of a comment. -/
theorem emit_toList {emitter : Emitter} {set : DeclarationSet} {text : String}
    (h : emitter.emit set = .ok text) :
    ∃ rest, text.toList =
      "# This is an autogenerated file for state machine methods in ".toList ++
        (set.modelId.chars ++ '\n' :: '#' :: rest) := by
  obtain ⟨hpath, -, rfl⟩ := emit_eq_ok_iff.mp h
  have hlines : emitter.lines set =
      ["# This is an autogenerated file for state machine methods in " ++ set.modelId.shown] ++
        ("# Please rerun " ++ emitter.command ++ " to regenerate.") :: "" ::
          ("# typed: " ++ emitter.sigil) :: "" :: ("class " ++ set.modelId.shown) ::
            (methodLines 1 set.declarations ++ ["end"]) := rfl
  rw [hlines, String.intercalate_append_of_ne_nil (by simp) (by simp),
    String.intercalate_cons_cons, ← shown_of_isConstantPath hpath]
  simp only [String.toList_append, List.append_assoc, String.intercalate_singleton]
  exact ⟨_, rfl⟩

/-- Also with a line feed at every line end it says the id there. -/
theorem emit_unified_toList {emitter : Emitter} {set : DeclarationSet} {text : String}
    (h : emitter.emit set = .ok text) :
    ∃ rest, (Text.unified text).toList =
      "# This is an autogenerated file for state machine methods in ".toList ++
        (set.modelId.chars ++ '\n' :: '#' :: rest) := by
  obtain ⟨rest, htext⟩ := emit_toList h
  have hlead : '\r' ∉ "# This is an autogenerated file for state machine methods in ".toList := by
    decide
  have hid := not_mem_of_isConstantPath (emit_eq_ok_iff.mp h).1
    (show isPathPart '\r' = false by decide) (by decide)
  refine ⟨Text.unifyLineEnds rest, ?_⟩
  rw [Text.unified, String.toList_ofList, htext, Text.unifyLineEnds_append hlead,
    Text.unifyLineEnds_append hid]
  simp [Text.unifyLineEnds]

/-- An emitted text tells the id of its model, whatever its line ends become. -/
theorem modelId_eq_of_unified {emitter : Emitter} {set other : DeclarationSet}
    {text otherText : String} (h : emitter.emit set = .ok text)
    (hother : emitter.emit other = .ok otherText)
    (hsame : Text.unified text = Text.unified otherText) : set.modelId = other.modelId := by
  have hpath := (emit_eq_ok_iff.mp h).1
  have hpath' := (emit_eq_ok_iff.mp hother).1
  obtain ⟨rest, htext⟩ := emit_unified_toList h
  obtain ⟨rest', htext'⟩ := emit_unified_toList hother
  rw [← hsame] at htext'
  have hids := List.append_cancel_left (htext.symm.trans htext')
  refine eq_of_isConstantPath hpath hpath' ?_
  -- The id ends where its last path character ends, with one line break more or none.
  obtain ⟨core, hcore, hchars⟩ := chars_of_isConstantPath hpath
  obtain ⟨core', hcore', hchars'⟩ := chars_of_isConstantPath hpath'
  have hcut : ∀ tail tail', core ++ '\n' :: tail = core' ++ '\n' :: tail' →
      core = core' ∧ tail = tail' := fun tail tail' heq => by
    obtain ⟨hsame, -, htail⟩ := cut_at (isPathPart_of_isScopedConstant hcore)
      (isPathPart_of_isScopedConstant hcore') (by decide) (by decide) heq
    exact ⟨hsame, htail⟩
  rcases hchars with hchars | hchars <;> rcases hchars' with hchars' | hchars' <;>
    rw [hchars, hchars'] at hids ⊢
  · exact (hcut _ _ hids).1
  · rw [List.append_assoc] at hids
    cases (hcut _ _ hids).2
  · rw [List.append_assoc] at hids
    cases (hcut _ _ hids).2
  · rw [List.append_assoc, List.append_assoc] at hids
    rw [(hcut _ _ hids).1]

/-! ## Lines -/

/-- An emitted text tells the lines of its methods if no line has a line break. -/
theorem methodLines_eq_of_emit {emitter : Emitter} {set other : DeclarationSet} {text : String}
    (h : emitter.emit set = .ok text) (hother : emitter.emit other = .ok text)
    (hlines : ∀ line ∈ methodLines 1 set.declarations, '\n' ∉ line.toList)
    (hlines' : ∀ line ∈ methodLines 1 other.declarations, '\n' ∉ line.toList) :
    methodLines 1 set.declarations = methodLines 1 other.declarations := by
  have hid := modelId_eq_of_unified h hother rfl
  obtain ⟨-, -, htext⟩ := emit_eq_ok_iff.mp h
  obtain ⟨-, -, htext'⟩ := emit_eq_ok_iff.mp hother
  have hsplit : ∀ set : DeclarationSet, "\n".intercalate (emitter.lines set) =
      "\n".intercalate (emitter.header set.modelId ++ ["", "class " ++ set.modelId.shown]) ++
        "\n" ++ "\n".intercalate (methodLines 1 set.declarations ++ ["end"]) := fun set => by
    rw [← String.intercalate_append_of_ne_nil (by simp) (by simp)]
    simp [Emitter.lines]
  have hbodies : "\n".intercalate (methodLines 1 set.declarations ++ ["end"]) =
      "\n".intercalate (methodLines 1 other.declarations ++ ["end"]) := by
    rw [htext, hsplit, hsplit, ← hid] at htext'
    exact (String.append_right_inj _).mp ((String.append_left_inj _).mp htext')
  -- Lines without line breaks come back when their text is split at the line breaks.
  have hread : ∀ lines : List String, (∀ line ∈ lines, '\n' ∉ line.toList) →
      ("\n".intercalate (lines ++ ["end"])).toList.splitOn '\n' =
        (lines ++ ["end"]).map String.toList := by
    intro lines hplain
    rw [String.toList_intercalate]
    refine List.splitOn_intercalate '\n' ?_ (by simp)
    intro cs hmem
    obtain ⟨line, hline, rfl⟩ := List.mem_map.mp hmem
    rcases List.mem_append.mp hline with hline | hline
    · exact hplain line hline
    · rw [List.mem_singleton.mp hline]
      decide
  have hmaps : (methodLines 1 set.declarations ++ ["end"]).map String.toList =
      (methodLines 1 other.declarations ++ ["end"]).map String.toList := by
    rw [← hread _ hlines, ← hread _ hlines', hbodies]
  exact List.append_cancel_right
    ((List.map_inj_right fun _ _ => String.toList_inj.mp).mp hmaps)

/-- Lines tell the methods if definitions tell them. -/
theorem eq_of_methodLines {level : Nat} {methods others : List Declaration}
    (htold : ∀ method ∈ methods, ∀ other ∈ others,
      definitionLine method = definitionLine other → method = other)
    (h : methodLines level methods = methodLines level others) : methods = others := by
  induction methods generalizing others with
  | nil =>
      cases others with
      | nil => rfl
      | cons other rest => cases rest <;> cases h
  | cons method rest ih =>
      cases others with
      | nil => cases rest <;> cases h
      | cons other others =>
          -- The last method has no empty line behind it, so four layouts meet here.
          have hfirst : definitionLine method = definitionLine other ∧
              methodLines level rest = methodLines level others := by
            cases rest <;> cases others <;> simp [methodLines] at h
            · exact ⟨h.2, rfl⟩
            · exact ⟨h.2.1, h.2.2⟩
          rw [htold method List.mem_cons_self other List.mem_cons_self hfirst.1,
            ih (fun a ha b hb => htold a (List.mem_cons_of_mem _ ha) b
              (List.mem_cons_of_mem _ hb)) hfirst.2]

/-! ## State machines -/

/-- A declaration as state machines have them, with a name that Ruby can define. -/
structure IsMachineMethod (types : TypeVocabulary) (method : Declaration) : Prop where
  returnType : method.returnType? = some types.boolean
  parameters : method.parameters = [] ∨ method.parameters = types.eventParameters
  name : ∀ c ∈ method.name.chars, isWordPart c = true ∨ isMark c = true

/-- If Ruby can define all methods of an item the name of the item is a word. -/
theorem isWordPart_of_declare {types : TypeVocabulary} {item : Item}
    (h : ∀ method ∈ types.declare item, Definable method) :
    ∀ c ∈ item.name.chars, isWordPart c = true :=
  isWordPart_of_isIdentifier (isWord_iff.mp (definable_declare_iff.mp h))

/-- If Ruby can define all methods of an item they are methods as state machines have them. -/
theorem isMachineMethod_of_declare {types : TypeVocabulary} {item : Item}
    (h : ∀ method ∈ types.declare item, Definable method) :
    ∀ method ∈ types.declare item, IsMachineMethod types method := by
  have hword := isWordPart_of_declare h
  have hname : ∀ (name : WideText) (before after : List Char),
      name.chars = before ++ item.name.chars ++ after →
      (before ++ after).all (fun c => isWordPart c || isMark c) = true →
      ∀ c ∈ name.chars, isWordPart c = true ∨ isMark c = true := by
    intro name before after hchars haround c hmem
    simp only [List.all_eq_true, Bool.or_eq_true] at haround
    rw [hchars, List.mem_append, List.mem_append] at hmem
    rcases hmem with (hmem | hmem) | hmem
    · exact haround c (List.mem_append_left _ hmem)
    · exact .inl (hword c hmem)
    · exact haround c (List.mem_append_right _ hmem)
  obtain ⟨kind, name⟩ := item
  intro method hmem
  cases kind with
  | event =>
      simp only [TypeVocabulary.declare, TypeVocabulary.ofEvent, List.mem_cons,
        List.not_mem_nil, or_false] at hmem
      rcases hmem with rfl | rfl | rfl | rfl
      · exact ⟨rfl, .inl rfl, hname _ "may_".toList "?".toList (by simp) (by decide)⟩
      · exact ⟨rfl, .inr rfl, fun c hc => .inl (hword c hc)⟩
      · exact ⟨rfl, .inr rfl, hname _ [] "!".toList (by simp) (by decide)⟩
      · exact ⟨rfl, .inr rfl, hname _ [] "_without_validation!".toList (by simp) (by decide)⟩
  | state =>
      rw [TypeVocabulary.declare, List.mem_singleton] at hmem
      rw [hmem]
      exact ⟨rfl, .inl rfl, hname _ [] "?".toList (by simp [TypeVocabulary.ofState]) (by decide)⟩

/-- What a definition says behind the name of a method. -/
def definitionTail (method : Declaration) : String :=
  if method.parameters = [] then "; end" else "(**params); end"

/-- Behind the name comes a character that no name has, and it tells whether there are
parameters. -/
theorem definitionTail_eq_cons (method : Declaration) :
    ∃ c rest, (definitionTail method).toList = c :: rest ∧
      (isWordPart c || isMark c) = false ∧ (c = ';' ↔ method.parameters = []) := by
  unfold definitionTail
  split
  next hnone => exact ⟨';', _, rfl, by decide, by simp [hnone]⟩
  next hsome => exact ⟨'(', _, rfl, by decide, by simp [hsome]⟩

/-- The names of the methods of state machines have no replacement characters. -/
theorem IsMachineMethod.replacement_not_mem {method : Declaration}
    (h : IsMachineMethod {} method) : '\uFFFD' ∉ method.name.chars := by
  intro hmem
  exact absurd (h.name '\uFFFD' hmem) (by decide)

/-- A definition says the name of its method and whether it has parameters. -/
theorem definitionLine_toList {method : Declaration} (h : IsMachineMethod {} method) :
    (definitionLine method).toList =
      "def ".toList ++ (method.name.chars ++ (definitionTail method).toList) := by
  have hshown : method.name.shown.toList = method.name.chars :=
    WideText.shown_toList h.replacement_not_mem
  have hsplat : ", ".intercalate (TypeVocabulary.eventParameters {} |>.map definitionParameter) =
      "**params" := by decide
  unfold definitionLine definitionTail
  rcases h.parameters with hparameters | hparameters
  · simp [hparameters, hshown]
  · rw [hparameters, hsplat]
    simp [TypeVocabulary.eventParameters, hshown]

/-- The methods of state machines are told by their definitions. -/
theorem eq_of_definitionLine {method other : Declaration} (h : IsMachineMethod {} method)
    (hother : IsMachineMethod {} other) (hlines : definitionLine method = definitionLine other) :
    method = other := by
  have hchars := congrArg String.toList hlines
  rw [definitionLine_toList h, definitionLine_toList hother] at hchars
  obtain ⟨c, rest, hrest, hc, hsemicolon⟩ := definitionTail_eq_cons method
  obtain ⟨c', rest', hrest', hc', hsemicolon'⟩ := definitionTail_eq_cons other
  rw [hrest, hrest'] at hchars
  -- The name ends at the first character that no name has.
  obtain ⟨hnames, hmarks, -⟩ := cut_at (p := fun c => isWordPart c || isMark c)
    (by simpa using h.name) (by simpa using hother.name) hc hc' (List.append_cancel_left hchars)
  have hname : method.name = other.name := by
    rw [WideText.eq_ofChars h.replacement_not_mem, WideText.eq_ofChars hother.replacement_not_mem,
      hnames]
  have hparameters : method.parameters = other.parameters := by
    have hsame : method.parameters = [] ↔ other.parameters = [] := by
      rw [← hsemicolon, ← hsemicolon', hmarks]
    rcases h.parameters with hnone | hsome <;> rcases hother.parameters with hnone' | hsome'
    · rw [hnone, hnone']
    · rw [hsame.mp hnone, hnone]
    · rw [hsame.mpr hnone', hnone']
    · rw [hsome, hsome']
  have hreturn : method.returnType? = other.returnType? := h.returnType.trans hother.returnType.symm
  cases method
  cases other
  congr

/-- The lines of the methods of state machines have no line breaks. -/
theorem break_not_mem_methodLines {level : Nat} {methods : List Declaration}
    (h : ∀ method ∈ methods, IsMachineMethod {} method) :
    ∀ line ∈ methodLines level methods, '\n' ∉ line.toList := by
  intro line hline
  have hindent : '\n' ∉ (indent level).toList := by simp [indent]
  rcases mem_methodLines hline with rfl | ⟨method, hmem, rfl | rfl⟩
  · decide
  · have hsignature : signatureLine method ∈ ["sig \x7b returns(T::Boolean) \x7d",
        "sig \x7b params(params: T.untyped).returns(T::Boolean) \x7d"] := by
      obtain ⟨name, returnType?, parameters⟩ := method
      obtain ⟨rfl, rfl | rfl, -⟩ := h _ hmem
      · exact List.mem_cons_self
      · exact List.mem_cons_of_mem _ List.mem_cons_self
    have hplain : ∀ line ∈ ["sig \x7b returns(T::Boolean) \x7d",
        "sig \x7b params(params: T.untyped).returns(T::Boolean) \x7d"], '\n' ∉ line.toList := by
      decide
    rw [String.toList_append, List.mem_append, not_or]
    exact ⟨hindent, hplain _ hsignature⟩
  · rw [String.toList_append, definitionLine_toList (h method hmem)]
    have hname : '\n' ∉ method.name.chars := fun hbreak =>
      absurd ((h method hmem).name _ hbreak) (by decide)
    have htail : '\n' ∉ (definitionTail method).toList := by
      unfold definitionTail
      split <;> decide
    simp [hindent, hname, htail]

/-- The accepted declarations of state machines are methods as state machines have them. -/
theorem isMachineMethod_of_emit {emitter : Emitter} {modelId : WideText}
    {machines : List Machine} {text : String}
    (h : emitter.emit (emitter.types.synthesize modelId machines) = .ok text) :
    ∀ method ∈ (machines.flatMap Machine.items).flatMap emitter.types.declare,
      IsMachineMethod {} method := by
  rw [TypeVocabulary.synthesize_eq] at h
  have hdefinable := (emit_eq_ok_iff.mp h).2.1
  intro method hmem
  obtain ⟨item, hitem, hdeclared⟩ := List.mem_flatMap.mp hmem
  refine isMachineMethod_of_declare (fun other hother => ?_) method hdeclared
  exact hdefinable other (List.mem_flatMap.mpr ⟨item, hitem, hother⟩)

/-- Two emitted texts are the same exactly if they are of the same id and of machines that declare
the same events and states in the same order, whichever machine declares each. -/
theorem emit_synthesize_eq_iff (emitter : Emitter) {modelId otherId : WideText}
    {machines others : List Machine} {text otherText : String}
    (h : emitter.emit (emitter.types.synthesize modelId machines) = .ok text)
    (hother : emitter.emit (emitter.types.synthesize otherId others) = .ok otherText) :
    text = otherText ↔
      modelId = otherId ∧ machines.flatMap Machine.items = others.flatMap Machine.items := by
  constructor
  · rintro rfl
    have hmethods := isMachineMethod_of_emit h
    have hmethods' := isMachineMethod_of_emit hother
    rw [TypeVocabulary.synthesize_eq] at h hother
    refine ⟨modelId_eq_of_unified h hother rfl, ?_⟩
    -- The text tells the lines, the lines tell the declarations, and these tell the items.
    refine TypeVocabulary.flatMap_declare_injective emitter.types ?_
    refine eq_of_methodLines ?_ (methodLines_eq_of_emit h hother
      (break_not_mem_methodLines hmethods) (break_not_mem_methodLines hmethods'))
    intro method hmem other hmem' hlines
    exact eq_of_definitionLine (hmethods method hmem) (hmethods' other hmem') hlines
  · rintro ⟨rfl, hitems⟩
    rw [TypeVocabulary.synthesize_eq] at h hother
    rw [hitems, hother] at h
    exact (Except.ok.inj h).symm

/-- A state that is named like the question about an event is told from another event. -/
theorem emit_synthesize_eq_iff_question :
    let emitter : Emitter := {}
    let event : List Machine := [{ events := ["toggle"], states := ["may_toggle"] }]
    let events : List Machine := [{ events := ["toggle", "may_toggle"] }]
    ∃ text otherText, emitter.emit (emitter.types.synthesize "Lamp" event) = .ok text ∧
      emitter.emit (emitter.types.synthesize "Lamp" events) = .ok otherText ∧
      text ≠ otherText := by
  intro emitter event events
  have hemitted : ∀ machines ∈ [event, events], ∃ text,
      emitter.emit (emitter.types.synthesize "Lamp" machines) = .ok text := by
    intro machines hmem
    have hdefinable : ∀ machines ∈ [event, events],
        ∀ method ∈ (emitter.types.synthesize "Lamp" machines).declarations, Definable method := by
      decide +kernel
    have hpath : isConstantPath "Lamp" = true := by decide
    exact ⟨_, emit_eq_ok_iff.mpr ⟨hpath, hdefinable machines hmem, rfl⟩⟩
  obtain ⟨text, htext⟩ := hemitted event (by simp)
  obtain ⟨otherText, hother⟩ := hemitted events (by simp)
  refine ⟨text, otherText, htext, hother, fun hsame => ?_⟩
  have hitems := ((emit_synthesize_eq_iff emitter htext hother).mp hsame).2
  revert hitems
  decide

end MachineRbi.Rbi
