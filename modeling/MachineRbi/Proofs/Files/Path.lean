import MachineRbi.Path

/-!
# Paths from names

A text that has slashes between names, and perhaps one before the first, says the path of just
these names: `ofChars_intercalate` from the working directory, and `ofChars_slash_intercalate` from
the root. The text is not longer than the names with a slash behind each
(`size_joinNames_le_slashedSize`).
-/

namespace MachineRbi.Path

/-- The texts between slashes are those of the list split at the slash. -/
theorem splitSlashes_eq_splitOn (cs : List Char) : splitSlashes cs = cs.splitOn '/' := by
  induction cs with
  | nil => rfl
  | cons c rest ih =>
      rw [splitSlashes, List.splitOn_cons_eq_if_modifyHead, ih]
      by_cases hslash : c = '/'
      · simp [hslash]
      · rw [if_neg hslash, if_neg (by simpa using hslash)]
        cases hrest : rest.splitOn '/' with
        | nil => exact (List.splitOn_ne_nil _ _ hrest).elim
        | cons first others => rfl

/-- A text that can name an entry of a directory. -/
structure IsPiece (cs : List Char) : Prop where
  isName : isName cs = true
  notUp : cs ≠ ['.', '.']
  noSlash : '/' ∉ cs

/-- What comes behind texts with a separator between them comes behind the last of them. -/
theorem intercalate_concat_append (separator last tail : List Char)
    (front : List (List Char)) :
    separator.intercalate (front ++ [last]) ++ tail =
      separator.intercalate (front ++ [last ++ tail]) := by
  induction front with
  | nil => simp
  | cons first rest ih =>
      rw [List.cons_append, List.cons_append, List.intercalate_cons_of_ne_nil (by simp),
        List.intercalate_cons_of_ne_nil (by simp), ← ih]
      simp only [List.append_assoc]

/-- Texts with a separator between them start with the first text. -/
theorem exists_intercalate_cons (separator first : List Char) (rest : List (List Char)) :
    ∃ tail, separator.intercalate (first :: rest) = first ++ tail := by
  cases rest with
  | nil => exact ⟨[], by simp⟩
  | cons next others => exact ⟨_, by rw [List.intercalate_cons_cons, List.append_assoc]⟩

/-- A text of names starts with none of its slashes. -/
theorem takeWhile_slash_intercalate {pieces : List (List Char)}
    (hpieces : ∀ piece ∈ pieces, IsPiece piece) :
    (['/'].intercalate pieces).takeWhile (· = '/') = [] := by
  cases pieces with
  | nil => rfl
  | cons first rest =>
      obtain ⟨hname, -, hslash⟩ := hpieces first List.mem_cons_self
      obtain ⟨tail, htail⟩ := exists_intercalate_cons ['/'] first rest
      cases first with
      | nil => simp [isName] at hname
      | cons c cs =>
          have hc : c ≠ '/' := fun h => hslash (h ▸ List.mem_cons_self)
          rw [htail, List.cons_append, List.takeWhile_cons_of_neg (by simpa using hc)]

/-- The texts between slashes that go somewhere are all of the names that a text is made of. -/
theorem filter_splitSlashes_intercalate {pieces : List (List Char)}
    (hpieces : ∀ piece ∈ pieces, IsPiece piece) :
    (splitSlashes (['/'].intercalate pieces)).filter isName = pieces := by
  rw [splitSlashes_eq_splitOn]
  cases pieces with
  | nil => rfl
  | cons first rest =>
      rw [List.splitOn_intercalate '/' (fun piece hmem => (hpieces piece hmem).noSlash)
        (by simp)]
      exact List.filter_eq_self.mpr fun piece hmem => (hpieces piece hmem).isName

/-- Names with slashes between them say the path that goes through them. -/
theorem ofChars_intercalate {pieces : List (List Char)}
    (hpieces : ∀ piece ∈ pieces, IsPiece piece) :
    ofChars (['/'].intercalate pieces) = ⟨.here, pieces.map String.ofList⟩ := by
  rw [ofChars, takeWhile_slash_intercalate hpieces, filter_splitSlashes_intercalate hpieces]
  rfl

/-- With a slash before the first name the path starts at the root. -/
theorem ofChars_slash_intercalate {pieces : List (List Char)}
    (hpieces : ∀ piece ∈ pieces, IsPiece piece) :
    ofChars ('/' :: ['/'].intercalate pieces) = ⟨.root, pieces.map String.ofList⟩ := by
  have hsplit : splitSlashes ('/' :: ['/'].intercalate pieces) =
      [] :: splitSlashes (['/'].intercalate pieces) := rfl
  rw [ofChars, List.takeWhile_cons_of_pos (by simp), takeWhile_slash_intercalate hpieces, hsplit,
    List.filter_cons_of_neg (by simp [isName]), filter_splitSlashes_intercalate hpieces]
  rfl

/-- Texts that can name entries do not name the directory above. -/
theorem up_not_mem_map {pieces : List (List Char)} (hpieces : ∀ piece ∈ pieces, IsPiece piece) :
    ".." ∉ pieces.map String.ofList := by
  intro hmem
  obtain ⟨piece, hpiece, heq⟩ := List.mem_map.mp hmem
  exact (hpieces piece hpiece).notUp (by simpa using congrArg String.toList heq)

/-- Two texts are one after the other on the way of a path. -/
theorem ofTexts_pair (first second : String) :
    ofTexts [first, second] = (ofText first).join (ofText second) := by
  have hhere : here.join (ofText first) = ofText first := by
    unfold join
    split
    next hanchor => rw [here, List.nil_append, ← hanchor]
    next => rfl
  rw [ofTexts, List.map_cons, List.map_cons, List.foldl_cons, List.foldl_cons, hhere]
  rfl

/-! ## Parts and sizes -/

/-- Names with slashes between them are not longer than with more names behind them. -/
theorem size_joinNames_le (front back : List String) :
    (joinNames front).utf8ByteSize ≤ (joinNames (front ++ back)).utf8ByteSize := by
  unfold joinNames
  by_cases hfront : front = []
  · simp [hfront]
  · by_cases hback : back = []
    · simp [hback]
    · rw [String.intercalate_append_of_ne_nil hfront hback, String.append_assoc,
        String.utf8ByteSize_append]
      exact Nat.le_add_right _ _

/-- The bytes of names with a slash behind each. -/
def slashedSize : List String → Nat
  | [] => 0
  | name :: rest => name.utf8ByteSize + 1 + slashedSize rest

/-- The bytes of two lists of names add up. -/
theorem slashedSize_append (front back : List String) :
    slashedSize (front ++ back) = slashedSize front + slashedSize back := by
  induction front with
  | nil => exact (Nat.zero_add _).symm
  | cons name rest ih => simp only [List.cons_append, slashedSize, ih, Nat.add_assoc]

/-- The bytes of the same name, so many times. -/
theorem slashedSize_replicate (count : Nat) (name : String) :
    slashedSize (List.replicate count name) = count * (name.utf8ByteSize + 1) := by
  induction count with
  | zero => simp [slashedSize]
  | succ count ih =>
      rw [List.replicate_succ, slashedSize, ih, Nat.succ_mul]
      omega

/-- Names with slashes between them are not longer than with a slash behind each. -/
theorem size_joinNames_le_slashedSize (names : List String) :
    (joinNames names).utf8ByteSize ≤ slashedSize names := by
  unfold joinNames
  induction names with
  | nil => decide
  | cons name rest ih =>
      by_cases hrest : rest = []
      · simp [hrest, slashedSize]
      · have hslash : "/".utf8ByteSize = 1 := rfl
        rw [← List.singleton_append, String.intercalate_append_of_ne_nil (by simp) hrest]
        simp only [String.intercalate_singleton, String.utf8ByteSize_append, List.singleton_append,
          slashedSize]
        omega

/-- If a path does not lead up, neither does the path to the directory above. -/
theorem up_not_mem_parent {path : Path} (h : ".." ∉ path.names) : ".." ∉ path.parent.names :=
  fun hmem => h ((List.dropLast_prefix _).subset hmem)

/-- Behind the names of a path up to one before the last there is another one. -/
theorem names_eq_append {path : Path} (hnames : path.names ≠ []) {front : List String}
    (hfront : front <+: path.parent.names) : ∃ back, back ≠ [] ∧ path.names = front ++ back := by
  obtain ⟨back, hback⟩ := hfront
  refine ⟨back ++ [path.names.getLast hnames], by simp, ?_⟩
  rw [← List.append_assoc, hback]
  exact (List.dropLast_concat_getLast hnames).symm

end MachineRbi.Path
