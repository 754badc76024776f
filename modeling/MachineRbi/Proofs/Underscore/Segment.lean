import MachineRbi.Proofs.Underscore.Boundary

/-!
# Segments of stems

The stem of an id has one segment for each of its constants, with slashes between them
(`underscore_intercalate`), and each segment is a word that starts with a small letter
(`isSegment_underscore`). On the way from a constant to its segment only case and underscores can
change (`solid_underscore`), so ids that share a stem differ in nothing else
(`underscore_segmentwise`).
-/

namespace MachineRbi.Underscore

/-! ## Small letters -/

/-- A character that a segment can go on with. -/
def isSegmentPart (c : Char) : Bool :=
  isSmall c || c.isDigit || c = '_'

/-- One word that starts with a small letter. -/
def isSegment : List Char → Bool
  | [] => false
  | c :: rest => isSmall c && rest.all isSegmentPart

/-- The text in small letters and without underscores. Two texts are the same folded exactly if they
differ at most in the case of ASCII letters and in underscores. -/
def folded (text : String) : List Char :=
  solid (text.toList.map Char.toLower)

/-- A character of a word has the lower case of ASCII, and no hyphen is one. -/
theorem lowerChar_joinHyphen {c : Char} (h : Rbi.isWordPart c = true) :
    Text.lowerChar (joinHyphen c) = c.toLower := by
  have hhyphen : c ≠ '-' := by
    rintro rfl
    exact absurd h (by decide)
  have hascii : c.toNat < 128 := Nat.lt_trans (toNat_lt_of_isWordPart h) (by decide)
  rw [joinHyphen, if_neg hhyphen, Text.lowerChar, if_pos hascii]

/-- A letter is small in lower case. -/
theorem isSmall_toLower {c : Char} (h : c.isAlpha = true) : isSmall c.toLower = true := by
  have hword : Rbi.isWordPart c = true := by simp [Rbi.isWordPart, Char.isAlphanum, h]
  -- So few characters are looked up one by one.
  have hall : ∀ n < 123, (Char.ofNat n).isAlpha = true →
      isSmall (Char.ofNat n).toLower = true := by decide +kernel
  have hc := hall c.toNat (toNat_lt_of_isWordPart hword)
  rw [Char.ofNat_toNat] at hc
  exact hc h

/-- A capital letter is a letter. -/
theorem isAlpha_of_isUpper {c : Char} (h : c.isUpper = true) : c.isAlpha = true := by
  show (c.isUpper || c.isLower) = true
  rw [h, Bool.true_or]

/-- What is no letter stays in lower case. -/
theorem toLower_of_not_isAlpha {c : Char} (h : ¬ c.isAlpha = true) : c.toLower = c := by
  -- Lower case is taken by cases on the bounds of the capital letters.
  exact dif_neg fun hcapital => h (isAlpha_of_isUpper (decide_eq_true hcapital))

/-- The characters of words become those of segments. -/
theorem isSegmentPart_toLower {c : Char} (h : Rbi.isWordPart c = true) :
    isSegmentPart c.toLower = true := by
  by_cases halpha : c.isAlpha = true
  · rw [isSegmentPart, isSmall_toLower halpha, Bool.true_or, Bool.true_or]
  · have hrest : (c.isDigit || c = '_') = true := by
      simpa [Rbi.isWordPart, Char.isAlphanum, halpha] using h
    rw [toLower_of_not_isAlpha halpha, isSegmentPart, Bool.or_assoc, hrest, Bool.or_true]

/-- Only an underscore is an underscore in lower case. -/
theorem toLower_eq_underscore_iff (c : Char) : c.toLower = '_' ↔ c = '_' := by
  by_cases halpha : c.isAlpha = true
  · have hsmall := isSmall_toLower halpha
    constructor
    · intro hunder
      rw [hunder] at hsmall
      exact absurd hsmall (by decide)
    · rintro rfl
      rfl
  · rw [toLower_of_not_isAlpha halpha]

/-- Underscores can be left out before lower case is taken or after it. -/
theorem solid_map_toLower (cs : List Char) :
    solid (cs.map Char.toLower) = (solid cs).map Char.toLower := by
  rw [solid, List.filter_map, solid]
  simp [Function.comp_def, toLower_eq_underscore_iff]

/-- Texts are folded one by one. -/
theorem folded_append (first second : String) :
    folded (first ++ second) = folded first ++ folded second := by
  rw [folded, String.toList_append, List.map_append, solid_append]
  rfl

/-- Texts with a separator between them are folded one by one, and the separator too. -/
theorem folded_intercalate (separator : String) (texts : List String) :
    folded (separator.intercalate texts) = (folded separator).intercalate (texts.map folded) := by
  induction texts with
  | nil => simp [folded, solid]
  | cons text rest ih =>
      cases rest with
      | nil => simp
      | cons next others =>
          rw [String.intercalate_cons_cons, folded_append, folded_append, ih, List.map_cons,
            List.map_cons, List.map_cons, List.intercalate_cons_cons]

/-! ## Constants -/

variable {constant : String} {constants others : List String}

/-- The first character stays where words are parted. -/
theorem head?_partWords (cs : List Char) : (partWords cs).head? = cs.head? := by
  rw [partWords_eq_parted, ← insertWhere_startsWord, head?_insertWhere]

/-- A constant is a part of an id. -/
theorem isPart_of_constant (h : Rbi.isConstant constant.toList = true) :
    IsPart constant.toList := by
  simpa using isPart_of_isConstant h [] (.inl rfl)

/-- The file stem of a constant is that of a text without double colons. -/
theorem underscore_of_isConstant (h : Rbi.isConstant constant.toList = true) :
    (underscore constant).toList = stem constant.toList := by
  have hstem := underscore_of_isPart (isPart_of_constant h)
  rw [String.ofList_toList] at hstem
  rw [hstem, String.toList_ofList]

/-- The parted words of a constant are made of the characters of words. -/
theorem isWordPart_partWords {cs : List Char} (h : Rbi.isConstant cs = true) :
    ∀ c ∈ partWords cs, Rbi.isWordPart c = true := by
  intro c hmem
  rcases mem_of_mem_partWords hmem with hmem | rfl
  · exact Rbi.isWordPart_of_isConstant h c hmem
  · decide

/-- The file stem of a constant is its parted words in ASCII lower case. -/
theorem underscore_eq_map_toLower (h : Rbi.isConstant constant.toList = true) :
    (underscore constant).toList = (partWords constant.toList).map Char.toLower := by
  rw [underscore_of_isConstant h, stem_eq_map (isPart_of_constant h)]
  exact List.map_congr_left fun c hmem => lowerChar_joinHyphen (isWordPart_partWords h c hmem)

/-- The file stem of a constant is a word that starts with a small letter. -/
theorem isSegment_underscore (h : Rbi.isConstant constant.toList = true) :
    isSegment (underscore constant).toList = true := by
  rw [underscore_eq_map_toLower h]
  have hwords := isWordPart_partWords h
  cases hconstant : constant.toList with
  | nil =>
      rw [hconstant] at h
      cases h
  | cons first rest =>
      -- The capital at the start stays there, and is a small letter afterwards.
      obtain ⟨tail, htail⟩ := List.head?_eq_some_iff.mp (head?_partWords (first :: rest))
      rw [hconstant, Rbi.isConstant, Bool.and_eq_true] at h
      rw [hconstant, htail] at hwords
      rw [htail, List.map_cons, isSegment, Bool.and_eq_true, List.all_eq_true]
      constructor
      · exact isSmall_toLower (isAlpha_of_isUpper h.1)
      · intro c hmem
        obtain ⟨d, hd, rfl⟩ := List.mem_map.mp hmem
        exact isSegmentPart_toLower (hwords d (List.mem_cons_of_mem _ hd))

/-- Without its underscores the file stem of a constant is the constant folded. -/
theorem solid_underscore (h : Rbi.isConstant constant.toList = true) :
    solid (underscore constant).toList = folded constant := by
  rw [underscore_eq_map_toLower h, solid_map_toLower, solid_partWords, ← solid_map_toLower, folded]

/-- The file stem of a constant can name an entry of a directory. -/
theorem isPiece_underscore (h : Rbi.isConstant constant.toList = true) :
    Path.IsPiece (underscore constant).toList := by
  rw [underscore_of_isConstant h]
  exact (isPiece_stem (isPart_of_constant h)).1

/-- Folded constants are told by their file stems. -/
theorem map_folded (hconstants : ∀ constant ∈ constants, Rbi.isConstant constant.toList = true) :
    constants.map folded =
      (constants.map underscore).map fun segment => solid segment.toList := by
  rw [List.map_map]
  refine List.map_congr_left fun constant hmem => ?_
  rw [Function.comp_apply, solid_underscore (hconstants constant hmem)]

/-! ## Ids of constants -/

/-- The file stem of constants with double colons between them is made of their file stems with
slashes between them. -/
theorem underscore_intercalate (hnonempty : constants ≠ [])
    (hconstants : ∀ constant ∈ constants, Rbi.isConstant constant.toList = true) :
    underscore ("::".intercalate constants) = "/".intercalate (constants.map underscore) := by
  have hcolons : slashScopes ([':', ':'].intercalate (constants.map String.toList)) =
      ['/'].intercalate (constants.map String.toList) := by
    refine slashScopes_intercalate (by simpa using hnonempty) fun part hpart => ?_
    obtain ⟨constant, hmem, rfl⟩ := List.mem_map.mp hpart
    exact (not_mem_of_isPart (isPart_of_constant (hconstants constant hmem))).1
  have hsegments : constants.map (stem ∘ String.toList) =
      constants.map (String.toList ∘ underscore) :=
    List.map_congr_left fun constant hmem =>
      (underscore_of_isConstant (hconstants constant hmem)).symm
  rw [← String.toList_inj, underscore_toList, String.toList_intercalate,
    String.toList_intercalate]
  show stem (slashScopes ([':', ':'].intercalate _)) = ['/'].intercalate _
  rw [hcolons, stem_intercalate, List.map_map, List.map_map, hsegments]

/-- No file stem of a constant has a slash in it, so the stems come back from the slashes between
them. -/
theorem splitOn_intercalate_underscore (hnonempty : constants ≠ [])
    (hconstants : ∀ constant ∈ constants, Rbi.isConstant constant.toList = true) :
    ("/".intercalate (constants.map underscore)).toList.splitOn '/' =
      (constants.map underscore).map String.toList := by
  rw [String.toList_intercalate]
  refine List.splitOn_intercalate '/' (fun piece hpiece => ?_) (by simpa using hnonempty)
  rw [List.map_map] at hpiece
  obtain ⟨constant, hmem, rfl⟩ := List.mem_map.mp hpiece
  exact (isPiece_underscore (hconstants constant hmem)).noSlash

/-- Constants with double colons between them share a file stem with other ones exactly if they have
the same file stems one by one. -/
theorem underscore_intercalate_eq_iff (hnonempty : constants ≠ [])
    (hconstants : ∀ constant ∈ constants, Rbi.isConstant constant.toList = true)
    (hotherNonempty : others ≠ [])
    (hothers : ∀ constant ∈ others, Rbi.isConstant constant.toList = true) :
    underscore ("::".intercalate constants) = underscore ("::".intercalate others) ↔
      constants.map underscore = others.map underscore := by
  rw [underscore_intercalate hnonempty hconstants, underscore_intercalate hotherNonempty hothers]
  constructor
  · intro hsame
    have hpieces := splitOn_intercalate_underscore hnonempty hconstants
    rw [hsame, splitOn_intercalate_underscore hotherNonempty hothers] at hpieces
    exact (List.map_inj_right fun _ _ => String.toList_inj.mp).mp hpieces.symm
  · intro hsame
    rw [hsame]

/-- The file stem of an id has one segment for each of its constants, with slashes between them.
Each segment is a word of small letters that can name a directory, and without underscores it is its
constant folded. So ids that share a stem are the same folded, constant by constant and as a
whole. -/
theorem underscore_segmentwise (hnonempty : constants ≠ [])
    (hconstants : ∀ constant ∈ constants, Rbi.isConstant constant.toList = true) :
    underscore ("::".intercalate constants) = "/".intercalate (constants.map underscore) ∧
      (∀ constant ∈ constants, isSegment (underscore constant).toList = true ∧
        Path.IsPiece (underscore constant).toList ∧
        solid (underscore constant).toList = folded constant) ∧
      ∀ others : List String, others ≠ [] →
        (∀ constant ∈ others, Rbi.isConstant constant.toList = true) →
        underscore ("::".intercalate constants) = underscore ("::".intercalate others) →
          constants.map folded = others.map folded ∧
            folded ("::".intercalate constants) = folded ("::".intercalate others) := by
  refine ⟨underscore_intercalate hnonempty hconstants, fun constant hmem =>
    ⟨isSegment_underscore (hconstants constant hmem), isPiece_underscore (hconstants constant hmem),
      solid_underscore (hconstants constant hmem)⟩, ?_⟩
  intro others hotherNonempty hothers hstem
  have hsegments := (underscore_intercalate_eq_iff hnonempty hconstants hotherNonempty hothers).mp
    hstem
  have hsame : constants.map folded = others.map folded := by
    rw [map_folded hconstants, hsegments, ← map_folded hothers]
  exact ⟨hsame, by rw [folded_intercalate, folded_intercalate, hsame]⟩

/-- Two ids of three constants each share a stem, in which an acronym ends before the last word.
They differ in case and in an underscore. -/
theorem underscore_segmentwise_parsers :
    let constants := ["API", "V2", "HTMLParser"]
    let others := ["Api", "V2", "Html_Parser"]
    (∀ constant ∈ constants ++ others, Rbi.isConstant constant.toList = true) ∧
      underscore ("::".intercalate constants) = "api/v2/html_parser" ∧
      underscore ("::".intercalate others) = "api/v2/html_parser" ∧
      "/".intercalate (constants.map underscore) = "api/v2/html_parser" ∧
      (∀ constant ∈ constants, isSegment (underscore constant).toList = true) ∧
      constants.map folded = others.map folded := by
  intro constants others
  have hall : ∀ constant ∈ constants ++ others, Rbi.isConstant constant.toList = true := by
    decide
  have hstem : underscore ("::".intercalate constants) = "api/v2/html_parser" := by
    decide +kernel
  have hother : underscore ("::".intercalate others) = "api/v2/html_parser" := by decide +kernel
  obtain ⟨hjoined, hsegments, hshared⟩ :=
    underscore_segmentwise (List.cons_ne_nil "API" ["V2", "HTMLParser"])
      fun constant hmem => hall constant (List.mem_append_left _ hmem)
  refine ⟨hall, hstem, hother, hjoined.symm.trans hstem, fun constant hmem =>
    (hsegments constant hmem).1, ?_⟩
  exact (hshared others (List.cons_ne_nil _ _)
    (fun constant hmem => hall constant (List.mem_append_right _ hmem))
    (hstem.trans hother.symm)).1

end MachineRbi.Underscore
