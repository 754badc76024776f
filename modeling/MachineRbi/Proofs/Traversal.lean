import Mathlib.Data.List.Forall2

/-!
# Checks in turn

Two checks in turn succeed if both do (`bind_eq_ok_iff`). A list of checks succeeds exactly if each
of them does (`mapM_eq_ok_iff`), and otherwise it fails as the first one that fails does
(`mapM_eq_error_iff`).
-/

namespace MachineRbi

variable {α β ε : Type} {f : α → Except ε β} {items : List α}

/-- A check that works with the result of another succeeds exactly if both do. -/
theorem bind_eq_ok_iff {first : Except ε α} {result : β} :
    first >>= f = .ok result ↔ ∃ value, first = .ok value ∧ f value = .ok result := by
  cases first <;> simp [bind, Except.bind]

/-- A check that works with the result of another fails if either does. -/
theorem bind_eq_error_iff {first : Except ε α} {fault : ε} :
    first >>= f = .error fault ↔
      first = .error fault ∨ ∃ value, first = .ok value ∧ f value = .error fault := by
  cases first <;> simp [bind, Except.bind]

/-- A change of the result does not change how a check fails. -/
theorem map_eq_error_iff {first : Except ε α} {g : α → β} {fault : ε} :
    first.map g = .error fault ↔ first = .error fault := by
  cases first <;> simp [Except.map]

/-- A check succeeds with a changed result exactly if it succeeds. -/
theorem map_eq_ok_iff {first : Except ε α} {g : α → β} {result : β} :
    first.map g = .ok result ↔ ∃ value, first = .ok value ∧ g value = result := by
  cases first <;> simp [Except.map]

/-- A list of checks gives the result of each. -/
theorem mapM_eq_ok_iff {results : List β} :
    items.mapM f = .ok results ↔
      List.Forall₂ (fun item result => f item = .ok result) items results := by
  induction items generalizing results with
  | nil => simp [pure, Except.pure, eq_comm]
  | cons item rest ih =>
      rw [List.mapM_cons]
      cases hfirst : f item with
      | error fault => cases results <;> simp [bind, Except.bind, hfirst]
      | ok first =>
          cases hrest : rest.mapM f with
          | error fault => cases results <;> simp [bind, Except.bind, hrest, ← ih]
          | ok others =>
              cases results <;>
                simp [bind, Except.bind, pure, Except.pure, hfirst, hrest, ← ih]

/-- A list of checks fails as the first check that fails, whatever comes behind it. -/
theorem mapM_eq_error_iff {fault : ε} :
    items.mapM f = .error fault ↔
      ∃ front item back, items = front ++ item :: back ∧
        (∀ other ∈ front, ∃ result, f other = .ok result) ∧ f item = .error fault := by
  induction items with
  | nil => simp [pure, Except.pure]
  | cons item rest ih =>
      rw [List.mapM_cons]
      cases hfirst : f item with
      | error first =>
          constructor
          · intro h
            cases h
            exact ⟨[], item, rest, rfl, by simp, hfirst⟩
          · rintro ⟨front, other, back, hsplit, hfront, hother⟩
            cases front with
            | nil =>
                obtain ⟨rfl, rfl⟩ := List.cons.inj hsplit
                rw [Except.error.inj (hfirst.symm.trans hother)]
                rfl
            | cons head tail =>
                obtain ⟨rfl, -⟩ := List.cons.inj hsplit
                obtain ⟨result, hresult⟩ := hfront item List.mem_cons_self
                rw [hresult] at hfirst
                cases hfirst
      | ok first =>
          have hrest : (do let first ← Except.ok first
                           let others ← rest.mapM f
                           pure (first :: others)) = .error fault ↔
              rest.mapM f = .error fault := by
            cases rest.mapM f <;> simp [bind, Except.bind, pure, Except.pure]
          rw [hrest, ih]
          constructor
          · rintro ⟨front, other, back, rfl, hfront, hother⟩
            refine ⟨item :: front, other, back, rfl, ?_, hother⟩
            intro earlier hmem
            rcases List.mem_cons.mp hmem with rfl | hmem
            · exact ⟨first, hfirst⟩
            · exact hfront earlier hmem
          · rintro ⟨front, other, back, hsplit, hfront, hother⟩
            cases front with
            | nil =>
                obtain ⟨rfl, rfl⟩ := List.cons.inj hsplit
                rw [hother] at hfirst
                cases hfirst
            | cons head tail =>
                obtain ⟨rfl, rfl⟩ := List.cons.inj hsplit
                exact ⟨tail, other, back, rfl,
                  fun earlier hmem => hfront earlier (List.mem_cons_of_mem _ hmem), hother⟩

/-- A list of checks gives results exactly if each of them does. -/
theorem exists_mapM_eq_ok_iff :
    (∃ results, items.mapM f = .ok results) ↔ ∀ item ∈ items, ∃ result, f item = .ok result := by
  simp only [mapM_eq_ok_iff]
  induction items with
  | nil => simp
  | cons item rest ih =>
      rw [List.forall_mem_cons, ← ih]
      constructor
      · rintro ⟨results, h⟩
        obtain ⟨result, others, hitem, hrest, -⟩ := List.forall₂_cons_left_iff.mp h
        exact ⟨⟨result, hitem⟩, others, hrest⟩
      · rintro ⟨⟨result, hitem⟩, others, hrest⟩
        exact ⟨result :: others, .cons hitem hrest⟩

/-- An item has a partner in a list that agrees item by item. -/
theorem exists_of_mem_left {R : α → β → Prop} {results : List β}
    (h : List.Forall₂ R items results) {item : α} (hmem : item ∈ items) :
    ∃ result ∈ results, R item result := by
  induction h with
  | nil => cases hmem
  | cons hhead _ ih =>
      rcases List.mem_cons.mp hmem with rfl | hmem
      · exact ⟨_, List.mem_cons_self, hhead⟩
      · obtain ⟨result, hresult, hitem⟩ := ih hmem
        exact ⟨result, List.mem_cons_of_mem _ hresult, hitem⟩

/-- Lists that agree item by item with one list agree with each other. -/
theorem forall₂_trans {γ : Type} {R : α → β → Prop} {S : β → γ → Prop} {T : α → γ → Prop}
    {firsts : List α} {seconds : List β} {thirds : List γ} (hfirst : List.Forall₂ R firsts seconds)
    (hsecond : List.Forall₂ S seconds thirds) (h : ∀ a b c, R a b → S b c → T a c) :
    List.Forall₂ T firsts thirds := by
  induction hfirst generalizing thirds with
  | nil =>
      cases hsecond
      exact .nil
  | cons hhead _ ih =>
      cases hsecond with
      | cons hother hrest => exact .cons (h _ _ _ hhead hother) (ih hrest)

end MachineRbi
