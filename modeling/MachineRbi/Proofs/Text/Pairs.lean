import Mathlib.Data.List.Chain
import MachineRbi.Text.Wide

/-!
# Pairs of halves

A text of UTF-16 units has a pair of halves in the place of each code point beyond the basic plane.
`joinPairs` puts the code points back. It undoes `units` unless the halves of a pair have been code
points of their own, one directly before the other (`joinPairs_flatMap_units`,
`joinPairs_eq_self_iff`).
-/

namespace MachineRbi.WideText

/-- The code point that two halves make. -/
def joinPoint (high low : Nat) : Nat :=
  0x10000 + (high - 0xD800) * 0x400 + (low - 0xDC00)

/-- Code points where each half with its other half behind it makes one. -/
def joinPairs : List Nat → List Nat
  | [] => []
  | [point] => [point]
  | point :: next :: rest =>
    if isHighHalf point && isLowHalf next then joinPoint point next :: joinPairs rest
    else point :: joinPairs (next :: rest)

/-- The UTF-16 units of a code point. -/
def units (point : Nat) : List Nat :=
  if point < 0x10000 then [point]
  else [0xD800 + (point - 0x10000) / 0x400, 0xDC00 + (point - 0x10000) % 0x400]

/-- The halves of a pair do not stand one directly before the other. -/
def KeepsApart (points : List Nat) : Prop :=
  points.IsChain fun point next => ¬ (isHighHalf point && isLowHalf next) = true

variable {point next high low : Nat} {points rest : List Nat}

/-- A first half is a number between the first and the last of its kind. -/
theorem isHighHalf_iff : isHighHalf point = true ↔ 0xD800 ≤ point ∧ point < 0xDC00 := by
  simp [isHighHalf]

/-- A last half is a number between the first and the last of its kind. -/
theorem isLowHalf_iff : isLowHalf point = true ↔ 0xDC00 ≤ point ∧ point < 0xE000 := by
  simp [isLowHalf]

/-- Two halves make a code point. -/
theorem joinPoint_lt (hhigh : isHighHalf high = true) (hlow : isLowHalf low = true) :
    joinPoint high low < 0x110000 := by
  rw [isHighHalf_iff] at hhigh
  rw [isLowHalf_iff] at hlow
  unfold joinPoint
  omega

/-- Joining pairs leaves no number beyond the last code point if there was none. -/
theorem joinPairs_lt (h : ∀ point ∈ points, point < 0x110000) :
    ∀ point ∈ joinPairs points, point < 0x110000 := by
  fun_induction joinPairs points with
  | case1 => simp
  | case2 point => exact h
  | case3 point next rest hpair ih =>
      rw [Bool.and_eq_true] at hpair
      rw [List.forall_mem_cons, List.forall_mem_cons] at h
      exact List.forall_mem_cons.mpr ⟨joinPoint_lt hpair.1 hpair.2, ih h.2.2⟩
  | case4 point next rest hpair ih =>
      rw [List.forall_mem_cons] at h
      exact List.forall_mem_cons.mpr ⟨h.1, ih h.2⟩

/-- Joining pairs makes no list longer. -/
theorem length_joinPairs_le (points : List Nat) : (joinPairs points).length ≤ points.length := by
  fun_induction joinPairs points with
  | case1 => exact Nat.le_refl _
  | case2 => exact Nat.le_refl _
  | case3 point next rest hpair ih =>
      simp only [List.length_cons]
      omega
  | case4 point next rest hpair ih => simpa using ih

/-- There is nothing to join exactly if no half stands directly before its other half. -/
theorem joinPairs_eq_self_iff : joinPairs points = points ↔ KeepsApart points := by
  fun_induction joinPairs points with
  | case1 => simp [KeepsApart]
  | case2 => simp [KeepsApart]
  | case3 point next rest hpair ih =>
      refine iff_of_false (fun h => ?_) (fun h => (List.isChain_cons_cons.mp h).1 hpair)
      have hlength := congrArg List.length h
      have hle := length_joinPairs_le rest
      simp only [List.length_cons] at hlength
      omega
  | case4 point next rest hpair ih =>
      rw [List.cons_inj_right, ih, KeepsApart, KeepsApart, List.isChain_cons_cons]
      exact (and_iff_right hpair).symm

/-- A code point that is no first half stays in front. -/
theorem joinPairs_cons_of_not_high (h : isHighHalf point = false) (rest : List Nat) :
    joinPairs (point :: rest) = point :: joinPairs rest := by
  cases rest with
  | nil => rfl
  | cons next rest => rw [joinPairs, h, Bool.false_and, if_neg Bool.false_ne_true]

/-- The units of a code point beyond the basic plane are joined again. -/
theorem joinPairs_units_append (hbeyond : ¬ point < 0x10000) (hpoint : point < 0x110000)
    (rest : List Nat) : joinPairs (units point ++ rest) = point :: joinPairs rest := by
  have hhigh : isHighHalf (0xD800 + (point - 0x10000) / 0x400) = true := by
    rw [isHighHalf_iff]
    omega
  have hlow : isLowHalf (0xDC00 + (point - 0x10000) % 0x400) = true := by
    rw [isLowHalf_iff]
    omega
  have hjoined : joinPoint (0xD800 + (point - 0x10000) / 0x400)
      (0xDC00 + (point - 0x10000) % 0x400) = point := by
    unfold joinPoint
    omega
  rw [units, if_neg hbeyond, List.cons_append, List.cons_append, List.nil_append, joinPairs, hhigh,
    hlow, hjoined]
  rfl

/-- The units of code points are joined as the code points themselves are. -/
theorem joinPairs_flatMap_units (h : ∀ point ∈ points, point < 0x110000) :
    joinPairs (points.flatMap units) = joinPairs points := by
  have hplain : ∀ {point}, point < 0x10000 → units point = [point] := fun h => if_pos h
  have hbeyond : ∀ {point}, ¬ point < 0x10000 → isHighHalf point = false := by
    intro point hlarge
    rw [Bool.eq_false_iff, Ne, isHighHalf_iff]
    omega
  fun_induction joinPairs points with
  | case1 => rfl
  | case2 point =>
      by_cases hsmall : point < 0x10000
      · simp [hplain hsmall, joinPairs]
      · have hunits := joinPairs_units_append hsmall (h point List.mem_cons_self) []
        simpa [joinPairs] using hunits
  | case3 point next rest hpair ih =>
      rw [List.forall_mem_cons, List.forall_mem_cons] at h
      have ⟨hhigh, hlow⟩ := Bool.and_eq_true_iff.mp hpair
      have hpoint : point < 0x10000 := by
        rw [isHighHalf_iff] at hhigh
        omega
      have hnext : next < 0x10000 := by
        rw [isLowHalf_iff] at hlow
        omega
      rw [List.flatMap_cons, List.flatMap_cons, hplain hpoint, hplain hnext, List.singleton_append,
        List.singleton_append, joinPairs, if_pos hpair, ih h.2.2]
  | case4 point next rest hpair ih =>
      rw [List.forall_mem_cons] at h
      have hrest := ih h.2
      rw [List.flatMap_cons]
      by_cases hsmall : point < 0x10000
      · -- Behind the code point come the units of the next one, which starts with no last half.
        rw [hplain hsmall, List.singleton_append]
        rw [List.flatMap_cons] at hrest ⊢
        by_cases hnext : next < 0x10000
        · rw [hplain hnext, List.singleton_append] at hrest ⊢
          rw [joinPairs, if_neg hpair, hrest]
        · have hhead : isLowHalf (0xD800 + (next - 0x10000) / 0x400) = false := by
            have hlast := (List.forall_mem_cons.mp h.2).1
            rw [Bool.eq_false_iff, Ne, isLowHalf_iff]
            omega
          rw [units, if_neg hnext, List.cons_append] at hrest ⊢
          rw [joinPairs, hhead, Bool.and_false, if_neg Bool.false_ne_true, hrest]
      · rw [joinPairs_units_append hsmall h.1, hrest]

/-- A text where the halves of each pair make one code point. -/
def joined (text : WideText) : WideText :=
  ⟨joinPairs text.points, joinPairs_lt text.bounded⟩

/-- Joining changes nothing exactly if no half stands directly before its other half. -/
theorem joined_eq_self_iff {text : WideText} : text.joined = text ↔ KeepsApart text.points := by
  rw [← joinPairs_eq_self_iff, WideText.ext_iff]
  rfl

/-- The characters of a text keep the halves apart, because none of them is half of a pair. -/
theorem keepsApart_ofChars (cs : List Char) : KeepsApart (ofChars cs).points := by
  refine joinPairs_eq_self_iff.mp ?_
  induction cs with
  | nil => rfl
  | cons c rest ih =>
      exact (joinPairs_cons_of_not_high (isHighHalf_toNat c) _).trans (congrArg _ ih)

/-- A text of characters has nothing to join. -/
@[simp]
theorem joined_ofString (s : String) : (ofString s).joined = ofString s :=
  joined_eq_self_iff.mpr (keepsApart_ofChars s.toList)

end MachineRbi.WideText
