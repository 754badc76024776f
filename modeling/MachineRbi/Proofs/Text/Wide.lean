import MachineRbi.Text.Wide

/-!
# Wide texts that hold characters only

A code point that is no character shows as the replacement character. So a wide text without that
character is the wide text of its characters (`eq_ofChars`), and it shows as they are
(`shown_toList`).
-/

namespace MachineRbi.WideText

/-- A code point that does not show as the replacement character is that of a character. -/
theorem toNat_charAt {point : Nat} (h : charAt point ≠ '\uFFFD') :
    (charAt point).toNat = point := by
  unfold charAt at h ⊢
  split at h
  next hvalid =>
    unfold Char.ofNat
    rw [if_pos hvalid, dif_pos hvalid]
    rfl
  next => exact (h rfl).elim

/-- Without replacement characters a wide text is that of its characters. -/
theorem eq_ofChars {text : WideText} (h : '\uFFFD' ∉ text.chars) : text = ofChars text.chars := by
  have hpoint : ∀ point ∈ text.points, (Char.toNat ∘ charAt) point = point := by
    intro point hmem
    refine toNat_charAt fun hshown => h ?_
    exact hshown ▸ List.mem_map_of_mem hmem
  ext1
  simp only [ofChars, chars]
  rw [List.map_map, List.map_congr_left hpoint, List.map_id']

/-- Without replacement characters a wide text shows as its characters. -/
theorem shown_toList {text : WideText} (h : '\uFFFD' ∉ text.chars) :
    text.shown.toList = text.chars := by
  rw [eq_ofChars h, chars_ofChars, shown, ofChars, shownChars_map_toNat, String.toList_ofList]

/-- Putting texts together puts their characters together. -/
@[simp]
theorem chars_append (a b : WideText) : (a ++ b).chars = a.chars ++ b.chars :=
  List.map_append

/-- The characters of a text are those of the text as a wide text. -/
@[simp]
theorem chars_ofString (s : String) : (ofString s).chars = s.toList :=
  chars_ofChars _

/-- What stands before the same end is the same. -/
theorem append_right_cancel {a b c : WideText} (h : a ++ c = b ++ c) : a = b := by
  have hpoints : a.points ++ c.points = b.points ++ c.points := congrArg WideText.points h
  exact WideText.ext (List.append_cancel_right hpoints)

end MachineRbi.WideText
