import MachineRbi.Proofs.Traversal
import MachineRbi.Toml.Document

/-!
# What a TOML document holds

The values of a document are scalars, lists and tables under text keys. Every step of the reader
keeps this so: reading a value (`read_isPlain`), changing the table at the end of a way
(`isPlain_changeTable`) and running through the statements (`isPlain_readStatements`). So whatever
text is read, its document is plain (`isPlain_parse`).
-/

namespace MachineRbi

/-- A value of scalars, lists and tables under text keys, without shared parts. -/
inductive Value.IsPlain : Value → Prop
  | scalar (scalar : Scalar) : IsPlain (.scalar scalar)
  | list {items : List Value} (items_isPlain : ∀ item ∈ items, IsPlain item) :
      IsPlain (.list items)
  | map {entries : List (Scalar × Value)}
      (keys : ∀ entry ∈ entries, ∃ text, entry.1 = .str text)
      (values : ∀ entry ∈ entries, IsPlain entry.2) : IsPlain (.map entries)

/-- Entries of plain values under text keys. -/
structure Entries.IsPlain (entries : Entries) : Prop where
  keys : ∀ entry ∈ entries, ∃ text, entry.1 = .str text
  values : ∀ entry ∈ entries, entry.2.IsPlain

/-- A table is plain exactly if its entries are. -/
theorem Value.isPlain_map_iff {entries : Entries} :
    (Value.map entries).IsPlain ↔ Entries.IsPlain entries :=
  ⟨fun h => by
    cases h with
    | map keys values => exact ⟨keys, values⟩,
    fun h => .map h.keys h.values⟩

/-- A list is plain exactly if its items are. -/
theorem Value.isPlain_list_iff {items : List Value} :
    (Value.list items).IsPlain ↔ ∀ item ∈ items, item.IsPlain :=
  ⟨fun h => by
    cases h with
    | list items_isPlain => exact items_isPlain,
    .list⟩

/-- A plain value with entries is a table. -/
theorem Value.IsPlain.eq_map {value : Value} (h : value.IsPlain) {entries : Entries}
    (hentries : value.entries? = some entries) : value = .map entries ∧ entries.IsPlain := by
  cases h with
  | scalar => cases hentries
  | list => cases hentries
  | map keys values =>
      cases hentries
      exact ⟨rfl, keys, values⟩

namespace Entries

variable {entries : Entries} {name : String} {value : Value}

/-- No entries are plain. -/
theorem isPlain_nil : IsPlain [] :=
  ⟨by simp, by simp⟩

/-- Plain entries stay plain with one more. -/
theorem IsPlain.concat (h : entries.IsPlain) (hvalue : value.IsPlain) :
    IsPlain (entries ++ [(.str name, value)]) := by
  constructor
  · intro entry hmem
    rcases List.mem_append.mp hmem with hmem | hmem
    · exact h.keys entry hmem
    · obtain rfl := List.mem_singleton.mp hmem
      exact ⟨_, rfl⟩
  · intro entry hmem
    rcases List.mem_append.mp hmem with hmem | hmem
    · exact h.values entry hmem
    · obtain rfl := List.mem_singleton.mp hmem
      exact hvalue

/-- What binding a key leaves behind was there, or has the value under this key or the same one. -/
theorem mem_bindKey {κ α : Type} {same : κ → κ → Bool} {bindings : List (κ × α)} {key : κ}
    {value : α} {binding : κ × α} (h : binding ∈ bindKey same bindings key value) :
    binding ∈ bindings ∨
      binding.2 = value ∧ (binding.1 = key ∨ ∃ old, (binding.1, old) ∈ bindings) := by
  induction bindings with
  | nil =>
      obtain rfl := List.mem_singleton.mp h
      exact .inr ⟨rfl, .inl rfl⟩
  | cons first rest ih =>
      obtain ⟨other, old⟩ := first
      rw [bindKey] at h
      split at h
      next =>
        rcases List.mem_cons.mp h with rfl | hmem
        · exact .inr ⟨rfl, .inr ⟨old, List.mem_cons_self⟩⟩
        · exact .inl (List.mem_cons_of_mem _ hmem)
      next =>
        rcases List.mem_cons.mp h with rfl | hmem
        · exact .inl List.mem_cons_self
        · refine (ih hmem).imp (List.mem_cons_of_mem _) (And.imp_right (Or.imp_right ?_))
          exact fun ⟨other, hother⟩ => ⟨other, List.mem_cons_of_mem _ hother⟩

/-- Plain entries stay plain if a key is bound to a plain value. -/
theorem IsPlain.insert (h : entries.IsPlain) (hvalue : value.IsPlain) :
    IsPlain (entries.insert (.str name) value) := by
  constructor
  · intro entry hmem
    rcases mem_bindKey hmem with hold | ⟨-, hkey | ⟨old, hold⟩⟩
    · exact h.keys entry hold
    · exact ⟨_, hkey⟩
    · exact h.keys (entry.1, old) hold
  · intro entry hmem
    rcases mem_bindKey hmem with hold | ⟨hnew, -⟩
    · exact h.values entry hold
    · rw [hnew]
      exact hvalue

/-- What plain entries have under a key is plain. -/
theorem IsPlain.get? (h : entries.IsPlain) (hget : entries.get? name = some value) :
    value.IsPlain := by
  obtain ⟨entry, hfind, rfl⟩ := Option.map_eq_some_iff.mp hget
  exact h.values entry (List.mem_of_find?_eq_some hfind)

end Entries

namespace Toml

variable {entries changed result : Entries} {name : String} {value : Value} {lists : Bool}
  {cs rest : List Char} {key header : Key} {draft next : Draft} {fuel : Nat}

/-! ## Changing tables -/

/-- A name that is new in plain entries leaves them plain. -/
theorem isPlain_bindNew (hentries : entries.IsPlain) (hvalue : value.IsPlain)
    (h : bindNew name value entries = .ok changed) : changed.IsPlain := by
  unfold bindNew at h
  split at h
  · cases h
  · cases h
    exact hentries.concat hvalue

/-- One more table in the list of a header leaves plain entries plain. -/
theorem isPlain_addTable (hentries : entries.IsPlain)
    (h : Draft.addTable name entries = .ok changed) : changed.IsPlain := by
  have hempty : (Value.map []).IsPlain := Value.isPlain_map_iff.mpr Entries.isPlain_nil
  unfold Draft.addTable at h
  split at h
  next =>
    cases h
    refine hentries.concat (Value.isPlain_list_iff.mpr fun item hmem => ?_)
    obtain rfl := List.mem_singleton.mp hmem
    exact hempty
  next items hget =>
    cases h
    refine hentries.insert (Value.isPlain_list_iff.mpr fun item hmem => ?_)
    rcases List.mem_append.mp hmem with hmem | hmem
    · exact Value.isPlain_list_iff.mp (hentries.get? hget) item hmem
    · obtain rfl := List.mem_singleton.mp hmem
      exact hempty
  next => cases h

/-- A change that keeps plain entries plain does so at the end of every way. -/
theorem isPlain_changeTable {change : Entries → Except Fault Entries}
    (hchange : ∀ inner inner', inner.IsPlain → change inner = .ok inner' → inner'.IsPlain)
    (hentries : entries.IsPlain) (h : changeTable lists change key entries = .ok changed) :
    changed.IsPlain := by
  induction key generalizing entries changed with
  | nil => exact hchange entries changed hentries h
  | cons name rest ih =>
      unfold changeTable at h
      split at h
      next =>
        obtain ⟨value, hvalue, hinsert⟩ := bind_eq_ok_iff.mp h
        obtain ⟨inner, hinner, rfl⟩ := map_eq_ok_iff.mp hvalue
        cases hinsert
        exact hentries.insert (Value.isPlain_map_iff.mpr (ih Entries.isPlain_nil hinner))
      next old hget =>
        obtain ⟨value, hvalue, hinsert⟩ := bind_eq_ok_iff.mp h
        obtain ⟨inner, hinner, rfl⟩ := map_eq_ok_iff.mp hvalue
        have hold := Value.isPlain_map_iff.mp (hentries.get? hget)
        cases hinsert
        exact hentries.insert (Value.isPlain_map_iff.mpr (ih hold hinner))
      next items hget =>
        have hitems := Value.isPlain_list_iff.mp (hentries.get? hget)
        split at h
        next last hlast =>
          obtain ⟨value, hvalue, hinsert⟩ := bind_eq_ok_iff.mp h
          obtain ⟨inner, hinner, rfl⟩ := map_eq_ok_iff.mp hvalue
          have hold := Value.isPlain_map_iff.mp (hitems _ (List.mem_of_getLast? hlast))
          cases hinsert
          refine hentries.insert (Value.isPlain_list_iff.mpr fun item hmem => ?_)
          rcases List.mem_append.mp hmem with hmem | hmem
          · exact hitems item ((List.dropLast_prefix _).subset hmem)
          · obtain rfl := List.mem_singleton.mp hmem
            exact Value.isPlain_map_iff.mpr (ih hold hinner)
        next => cases h
      next => cases h

/-! ## Reading values -/

variable [Stack]

/-- What is read of a value, of items and of a table written in place is plain. -/
theorem read_isPlain (fuel : Nat) :
    (∀ weight cs value rest, readValue weight fuel cs = .ok (value, rest) → value.IsPlain) ∧
      (∀ weight cs items rest, readItems weight fuel cs = .ok (items, rest) →
        ∀ item ∈ items, item.IsPlain) ∧
      ∀ weight entries frozen cs result rest, Entries.IsPlain entries →
        readInline weight entries frozen fuel cs = .ok (result, rest) →
        Entries.IsPlain result := by
  induction fuel with
  | zero =>
      refine ⟨fun _ _ _ _ h => ?_, fun _ _ _ _ h => ?_, fun _ _ _ _ _ _ _ h => ?_⟩
      · rw [readValue] at h
        cases h
      · rw [readItems] at h
        cases h
      · rw [readInline] at h
        cases h
  | succ fuel ih =>
      obtain ⟨ihValue, ihItems, ihInline⟩ := ih
      refine ⟨fun weight cs value rest h => ?_, fun weight cs items rest h => ?_,
        fun weight entries frozen cs result rest hentries h => ?_⟩
      · unfold readValue at h
        split at h
        next rest' =>
          -- An array.
          obtain ⟨inner, -, h⟩ := bind_eq_ok_iff.mp h
          obtain ⟨behind, -, h⟩ := bind_eq_ok_iff.mp h
          obtain ⟨⟨items, last⟩, hitems, h⟩ := bind_eq_ok_iff.mp h
          cases h
          exact .list (ihItems _ _ _ _ hitems)
        next rest' =>
          -- A table written in place.
          obtain ⟨inner, -, h⟩ := bind_eq_ok_iff.mp h
          split at h
          next =>
            cases h
            exact Value.isPlain_map_iff.mpr Entries.isPlain_nil
          next =>
            obtain ⟨⟨found, last⟩, hfound, h⟩ := bind_eq_ok_iff.mp h
            cases h
            exact Value.isPlain_map_iff.mpr (ihInline _ _ _ _ _ _ Entries.isPlain_nil hfound)
        next quote rest' _ _ =>
          split at h
          next =>
            -- A text, on one line or on several.
            dsimp only at h
            split at h
            all_goals
              obtain ⟨⟨text, last⟩, -, h⟩ := bind_eq_ok_iff.mp h
              cases h
              exact .scalar _
          next =>
            obtain ⟨⟨found, last⟩, -, h⟩ := map_eq_ok_iff.mp h
            cases h
            exact .scalar _
        next => cases h
      · unfold readItems at h
        split at h
        next =>
          cases h
          exact fun item hmem => nomatch hmem
        next =>
          obtain ⟨⟨item, behind⟩, hitem, h⟩ := bind_eq_ok_iff.mp h
          obtain ⟨between, -, h⟩ := bind_eq_ok_iff.mp h
          have hfirst := ihValue _ _ _ _ hitem
          split at h
          next =>
            cases h
            simpa using hfirst
          next =>
            obtain ⟨further, -, h⟩ := bind_eq_ok_iff.mp h
            obtain ⟨⟨others, last⟩, hothers, h⟩ := bind_eq_ok_iff.mp h
            cases h
            exact List.forall_mem_cons.mpr ⟨hfirst, ihItems _ _ _ _ hothers⟩
          next => cases h
      · unfold readInline at h
        obtain ⟨⟨key, behind⟩, -, h⟩ := bind_eq_ok_iff.mp h
        dsimp only at h
        split at h
        next =>
          obtain ⟨⟨value, last⟩, hvalue, h⟩ := bind_eq_ok_iff.mp h
          dsimp only at h
          split at h
          next => cases h
          next =>
            obtain ⟨changed, hchanged, h⟩ := bind_eq_ok_iff.mp h
            have hplain : changed.IsPlain := isPlain_changeTable
              (fun inner inner' hinner hbind =>
                isPlain_bindNew hinner (ihValue _ _ _ _ hvalue) hbind) hentries hchanged
            split at h
            next =>
              cases h
              exact hplain
            next => exact ihInline _ _ _ _ _ _ hplain h
            next => cases h
        next => cases h

/-! ## Statements -/

omit [Stack] in
/-- A header that is read leaves a plain draft plain. -/
theorem isPlain_readHeader {found : Draft × Key} (hdraft : draft.root.IsPlain)
    (h : readHeader fuel draft cs = .ok (found, rest)) : found.1.root.IsPlain := by
  have hsettled : draft.settle.root.IsPlain := hdraft
  unfold readHeader at h
  dsimp only at h
  split at h
  next =>
    -- One more table of a list.
    obtain ⟨⟨key, behind⟩, -, h⟩ := bind_eq_ok_iff.mp h
    obtain ⟨opened, hopened, h⟩ := bind_eq_ok_iff.mp h
    have hplain : opened.root.IsPlain := by
      unfold Draft.openListed at hopened
      dsimp only at hopened
      split at hopened
      next => cases hopened
      next =>
        obtain ⟨root, hroot, hopened⟩ := bind_eq_ok_iff.mp hopened
        cases hopened
        exact isPlain_changeTable (fun _ _ => isPlain_addTable) hsettled hroot
    split at h
    next =>
      cases h
      exact hplain
    next => cases h
  next =>
    obtain ⟨⟨key, behind⟩, -, h⟩ := bind_eq_ok_iff.mp h
    obtain ⟨opened, hopened, h⟩ := bind_eq_ok_iff.mp h
    have hplain : opened.root.IsPlain := by
      unfold Draft.openTable at hopened
      split at hopened
      next => cases hopened
      next =>
        obtain ⟨root, hroot, hopened⟩ := bind_eq_ok_iff.mp hopened
        cases hopened
        exact isPlain_changeTable (fun _ _ hinner hsame => by cases hsame; exact hinner) hsettled
          hroot
    split at h
    next =>
      cases h
      exact hplain
    next => cases h

/-- A binding that is read leaves a plain draft plain. -/
theorem isPlain_readBinding (hdraft : draft.root.IsPlain)
    (h : readBinding fuel draft header cs = .ok (next, rest)) : next.root.IsPlain := by
  unfold readBinding at h
  obtain ⟨⟨key, behind⟩, -, h⟩ := bind_eq_ok_iff.mp h
  dsimp only at h
  split at h
  next =>
    obtain ⟨⟨value, last⟩, hvalue, h⟩ := bind_eq_ok_iff.mp h
    obtain ⟨assigned, hassigned, h⟩ := bind_eq_ok_iff.mp h
    cases h
    have hplain := (read_isPlain fuel).1 _ _ _ _ hvalue
    unfold Draft.assign at hassigned
    dsimp only at hassigned
    split at hassigned
    next => cases hassigned
    next =>
      split at hassigned
      next => cases hassigned
      next =>
        obtain ⟨root, hroot, hassigned⟩ := bind_eq_ok_iff.mp hassigned
        cases hassigned
        exact isPlain_changeTable (fun _ _ hinner => isPlain_bindNew hinner hplain) hdraft hroot
  next => cases h

/-- The statements that are read leave a plain draft plain. -/
theorem isPlain_readStatements (hdraft : draft.root.IsPlain)
    (h : readStatements fuel draft header cs = .ok next) : next.root.IsPlain := by
  induction fuel generalizing draft header cs with
  | zero =>
      cases h
      exact hdraft
  | succ fuel ih =>
      unfold readStatements at h
      extract_lets text finish at h
      have hend : ∀ {draft header rest}, draft.root.IsPlain →
          finish ((draft, header), rest) = .ok next → next.root.IsPlain := by
        intro draft header rest hdraft h
        obtain ⟨behind, -, h⟩ := bind_eq_ok_iff.mp h
        split at h
        next =>
          cases h
          exact hdraft
        next => exact ih hdraft h
        next => cases h
      clear_value text
      split at h
      next =>
        obtain ⟨⟨⟨found, inside⟩, behind⟩, hfound, h⟩ := bind_eq_ok_iff.mp h
        exact hend (isPlain_readHeader hdraft hfound) h
      next =>
        split at h
        next =>
          obtain ⟨⟨found, behind⟩, hfound, h⟩ := bind_eq_ok_iff.mp h
          have hrest : finish ((found, header), behind) = .ok next := h
          exact hend (isPlain_readBinding hdraft hfound) hrest
        next =>
          split at h
          next =>
            have hrest : finish ((draft, header), _) = .ok next := h
            exact hend hdraft hrest
          next => cases h
      next =>
        have hrest : finish ((draft, header), []) = .ok next := h
        exact hend hdraft hrest

/-- What a text says is plain. -/
theorem isPlain_parse {text : String} (h : parse text = .ok entries) : entries.IsPlain := by
  obtain ⟨draft, hdraft, h⟩ := bind_eq_ok_iff.mp h
  cases h
  have hempty : Draft.empty.root.IsPlain := Entries.isPlain_nil
  exact isPlain_readStatements hempty hdraft

end Toml

end MachineRbi
