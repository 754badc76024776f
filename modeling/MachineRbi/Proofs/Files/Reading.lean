import MachineRbi.Proofs.Files.Walk

/-!
# Reading what was written

A text is stored as it is, and reading turns every line end into a line feed. So a text reads back
unified (`readText_of_holds`), which is as it was written if it has no carriage returns.
-/

namespace MachineRbi

/-- Text comes back from its bytes. -/
theorem decodeText_toUTF8 (text : String) : decodeText text.toUTF8 = some text := by
  have hvalid : text.toUTF8.IsValidUTF8 := text.isValidUTF8
  unfold decodeText String.fromUTF8?
  rw [dif_pos hvalid]
  rfl

/-- Bytes encode a text exactly if they are its bytes. -/
theorem decodeText_eq_some_iff {bytes : ByteArray} {text : String} :
    decodeText bytes = some text ↔ bytes = text.toUTF8 := by
  constructor
  · intro h
    unfold decodeText String.fromUTF8? at h
    split at h
    · cases h
      rfl
    · cases h
  · rintro rfl
    exact decodeText_toUTF8 text

namespace Text

/-- A text with a line feed at every line end. -/
def unified (text : String) : String :=
  String.ofList (unifyLineEnds text.toList)

/-- Characters before the first carriage return stay as they are. -/
theorem unifyLineEnds_append {front : List Char} (h : '\r' ∉ front) (rest : List Char) :
    unifyLineEnds (front ++ rest) = front ++ unifyLineEnds rest := by
  induction front with
  | nil => rfl
  | cons c cs ih =>
      simp only [List.mem_cons, not_or] at h
      rw [List.cons_append, unifyLineEnds, ih h.2, List.cons_append]
      · rintro later rfl
        exact (h.1 rfl).elim
      · rintro rfl
        exact (h.1 rfl).elim

/-- No carriage return is left at a line end. -/
theorem return_not_mem_unifyLineEnds (cs : List Char) : '\r' ∉ unifyLineEnds cs := by
  fun_induction unifyLineEnds cs with
  | case1 => simp
  | case2 rest ih => simp [ih]
  | case3 rest _ ih => simp [ih]
  | case4 c rest _ hreturn ih =>
      rw [List.mem_cons, not_or]
      exact ⟨fun heq => hreturn heq.symm, ih⟩

/-- A text without carriage returns is unified. -/
theorem unified_of_not_mem {text : String} (h : '\r' ∉ text.toList) : unified text = text := by
  have hchars := unifyLineEnds_append h []
  rw [List.append_nil, show unifyLineEnds [] = [] from rfl, List.append_nil] at hchars
  rw [unified, hchars, String.ofList_toList]

/-- A text is unified exactly if it has no carriage returns. -/
theorem unified_eq_self_iff {text : String} : unified text = text ↔ '\r' ∉ text.toList := by
  constructor
  · intro h
    rw [← h, unified, String.toList_ofList]
    exact return_not_mem_unifyLineEnds text.toList
  · exact unified_of_not_mem

/-- A text with a carriage return before each line feed. -/
def withReturns (text : String) : String :=
  String.ofList (text.toList.flatMap fun c => if c = '\n' then ['\r', '\n'] else [c])

/-- A text without carriage returns is what remains of it with one before each line feed. -/
theorem unified_withReturns {text : String} (h : '\r' ∉ text.toList) :
    unified (withReturns text) = text := by
  have hchars : ∀ cs : List Char, '\r' ∉ cs →
      unifyLineEnds (cs.flatMap fun c => if c = '\n' then ['\r', '\n'] else [c]) = cs := by
    intro cs hnone
    induction cs with
    | nil => rfl
    | cons c rest ih =>
        simp only [List.mem_cons, not_or] at hnone
        rw [List.flatMap_cons]
        by_cases hfeed : c = '\n'
        · rw [if_pos hfeed, List.cons_append, List.cons_append, unifyLineEnds, List.nil_append,
            ih hnone.2, hfeed]
        · rw [if_neg hfeed, unifyLineEnds_append (by simpa using hnone.1), ih hnone.2,
            List.singleton_append]
  rw [unified, withReturns, String.toList_ofList, hchars text.toList h, String.ofList_toList]

/-- With a carriage return before each line feed a text that has any is another one. -/
theorem withReturns_ne {text : String} (hfeed : '\n' ∈ text.toList) (h : '\r' ∉ text.toList) :
    withReturns text ≠ text := by
  intro hsame
  refine h ?_
  rw [← hsame, withReturns, String.toList_ofList, List.mem_flatMap]
  exact ⟨'\n', hfeed, by simp⟩

end Text

namespace Workspace

variable {workspace : Workspace} {path : Path} {text : String}

/-- A text that was written reads back unified. -/
theorem readText_of_holds (hholds : workspace.Holds path text.toUTF8) :
    workspace.readText path = .ok (Text.unified text) :=
  readText_eq_ok_iff.mpr ⟨_, text, hholds, decodeText_toUTF8 text, rfl⟩

/-- What is read is unified. -/
theorem unified_of_readText (h : workspace.readText path = .ok text) :
    Text.unified text = text := by
  obtain ⟨bytes, stored, -, -, rfl⟩ := readText_eq_ok_iff.mp h
  refine Text.unified_of_not_mem ?_
  rw [String.toList_ofList]
  exact Text.return_not_mem_unifyLineEnds stored.toList

end Workspace

end MachineRbi
