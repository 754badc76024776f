import MachineRbi.Text.Basic

/-!
# Hexadecimal digits read back

Digits that were written for a number are read as that number (`hexNumber?_hexDigits`), and a
number below 65536 is written with four of them (`exists_hexDigits_four`).
-/

namespace MachineRbi.Text

/-- The digit that is written for a number below 16 has the value of the number. -/
theorem hexValue?_digitChar {digit : Nat} (h : digit < 16) :
    hexValue? digit.digitChar = some digit := by
  have hall : ∀ digit : Fin 16, hexValue? digit.val.digitChar = some digit.val := by decide
  exact hall ⟨digit, h⟩

/-- Zeros in front do not change a number. -/
theorem hexNumber?_replicate_append (count : Nat) (digits : List Char) :
    hexNumber? (List.replicate count '0' ++ digits) = hexNumber? digits := by
  induction count with
  | zero => rfl
  | succ count ih => exact ih

/-- The digits of a number are read as it. -/
theorem hexNumber?_toDigits (number : Nat) : hexNumber? (Nat.toDigits 16 number) = some number := by
  induction number using Nat.strongRecOn with
  | _ number ih =>
      rw [Nat.toDigits_eq_if (by decide)]
      split
      next hsmall => simp [hexNumber?, hexValue?_digitChar hsmall]
      next hlarge =>
        have hfront := ih (number / 16) (Nat.div_lt_self (by omega) (by decide))
        have hlast := hexValue?_digitChar (Nat.mod_lt number (show 0 < 16 by decide))
        unfold hexNumber? at hfront ⊢
        rw [List.foldlM_append, hfront]
        simp [hlast, Nat.div_add_mod]

/-- Written digits are read back. -/
theorem hexNumber?_hexDigits (width number : Nat) :
    hexNumber? (hexDigits width number) = some number := by
  rw [hexDigits, hexNumber?_replicate_append, hexNumber?_toDigits]

/-- The written form of a number below 65536 has four digits. -/
theorem length_hexDigits_four {number : Nat} (h : number < 0x10000) :
    (hexDigits 4 number).length = 4 := by
  have hlength : (Nat.toDigits 16 number).length ≤ 4 :=
    (Nat.length_toDigits_le_iff (by decide) (by decide)).mpr h
  simp only [hexDigits, List.length_append, List.length_replicate]
  omega

/-- The four digits of a number below 65536 are read as the number. -/
theorem exists_hexDigits_four {number : Nat} (h : number < 0x10000) :
    ∃ a b c d, hexDigits 4 number = [a, b, c, d] ∧ hexNumber? [a, b, c, d] = some number := by
  have hlength := length_hexDigits_four h
  have hnumber := hexNumber?_hexDigits 4 number
  match hexDigits 4 number, hlength, hnumber with
  | [a, b, c, d], _, hnumber => exact ⟨a, b, c, d, rfl, hnumber⟩

end MachineRbi.Text
