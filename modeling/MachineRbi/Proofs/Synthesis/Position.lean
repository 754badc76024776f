import Mathlib.Algebra.GroupWithZero.Nat
import MachineRbi.Synthesis

/-!
# Where a declaration stands

Every machine fills a block of declarations, four for each of its events and then one for each of
its states, and the blocks follow each other in the order of the machines. So the position of a
declaration is told by sums over the machines before its own (`synthesize_positions`).
-/

namespace MachineRbi

/-- What stands before the names of a machine: its scope and an underscore if some character of the
scope is not blank, and nothing otherwise. -/
def Machine.lead (machine : Machine) : WideText :=
  match machine.scope? with
  | some scope => if scope.chars.any fun c => !Text.isBlank c then scope ++ "_" else ""
  | none => ""

/-- How many declarations a machine gives. -/
def Machine.width (machine : Machine) : Nat :=
  4 * machine.events.length + machine.states.length

/-- How many declarations the machines before an index give. -/
def Machine.base (machines : List Machine) (index : Nat) : Nat :=
  ((machines.take index).map width).sum

/-- The scope leads names exactly if it is not blank. -/
theorem Machine.scopeLead_eq (machine : Machine) : scopeLead machine.scope? = machine.lead := by
  unfold lead
  cases machine.scope? with
  | none => rfl
  | some scope =>
      have hany : (scope.chars.any fun c => !Text.isBlank c) =
          !scope.chars.all Text.isBlank := List.not_all_eq_any_not.symm
      dsimp only [scopeLead]
      rw [hany]
      cases scope.chars.all Text.isBlank <;> rfl

/-- What a list of lists holds at a place of one of them, if they are put after each other. -/
theorem getElem?_flatMap {α β : Type} (f : α → List β) {xs : List α} {i k : Nat}
    (hi : i < xs.length) (hk : k < (f xs[i]).length) :
    (xs.flatMap f)[((xs.take i).map fun x => (f x).length).sum + k]? = (f xs[i])[k]? := by
  have hsplit : xs = xs.take i ++ xs[i] :: xs.drop (i + 1) := by
    rw [← List.drop_eq_getElem_cons hi, List.take_append_drop]
  have hflat : xs.flatMap f =
      (xs.take i).flatMap f ++ (f xs[i] ++ (xs.drop (i + 1)).flatMap f) := by
    conv => lhs; rw [hsplit]
    rw [List.flatMap_append, List.flatMap_cons]
  rw [hflat, ← List.length_flatMap, List.getElem?_append_right (by omega), Nat.add_sub_cancel_left,
    List.getElem?_append_left hk]

namespace TypeVocabulary

variable {types : TypeVocabulary} {machine : Machine} {machines : List Machine}

/-- A machine gives as many declarations as its width says. -/
theorem length_ofMachine (types : TypeVocabulary) (machine : Machine) :
    (types.ofMachine machine).length = machine.width := by
  simp [ofMachine, ofEvent, Machine.width, List.length_flatMap, List.map_const', Nat.mul_comm]

/-- The events of a machine give four declarations each. -/
theorem length_events (types : TypeVocabulary) (machine : Machine) :
    (machine.events.flatMap fun event => types.ofEvent (machine.lead ++ event)).length =
      4 * machine.events.length := by
  simp [ofEvent, List.length_flatMap, List.map_const', Nat.mul_comm]

/-- The declarations of an event among those of its machine. -/
theorem getElem?_ofMachine_event {j k : Nat} (hj : j < machine.events.length) (hk : k < 4) :
    (types.ofMachine machine)[4 * j + k]? =
      (types.ofEvent (machine.lead ++ machine.events[j]))[k]? := by
  have hsum : ((machine.events.take j).map fun event =>
      (types.ofEvent (machine.lead ++ event)).length).sum = 4 * j := by
    simp [ofEvent, List.map_const', Nat.min_eq_left (Nat.le_of_lt hj), Nat.mul_comm]
  have hblock := getElem?_flatMap (fun event => types.ofEvent (machine.lead ++ event)) hj hk
  rw [hsum] at hblock
  have hevents := types.length_events machine
  rw [ofMachine, machine.scopeLead_eq, List.getElem?_append_left (by omega), hblock]

/-- The declaration of a state among those of its machine. -/
theorem getElem?_ofMachine_state {j : Nat} (hj : j < machine.states.length) :
    (types.ofMachine machine)[4 * machine.events.length + j]? =
      some (types.ofState (machine.lead ++ machine.states[j])) := by
  have hevents := types.length_events machine
  rw [ofMachine, machine.scopeLead_eq, List.getElem?_append_right (by omega), hevents,
    Nat.add_sub_cancel_left]
  simp [hj]

/-- The declarations of a machine among those of all machines. -/
theorem getElem?_synthesize {modelId : WideText} {i k : Nat} (hi : i < machines.length)
    (hk : k < machines[i].width) :
    (types.synthesize modelId machines).declarations[Machine.base machines i + k]? =
      (types.ofMachine machines[i])[k]? := by
  have hbase : ((machines.take i).map fun machine => (types.ofMachine machine).length).sum =
      Machine.base machines i := by
    simp only [length_ofMachine, Machine.base]
  rw [← hbase]
  exact getElem?_flatMap types.ofMachine hi (by rw [length_ofMachine]; exact hk)

/-- The declarations of machines stand where the machines before them end: four for each event in
turn, of which all but the first take any keywords, and then one for each state. More machines only
add declarations behind them, and a declaration is there as often as machines give it. -/
theorem synthesize_positions (types : TypeVocabulary) (modelId : WideText)
    (machines : List Machine) :
    let set := types.synthesize modelId machines
    let boolean := some types.boolean
    let keywords : List Parameter := [⟨"params", some types.untyped, true⟩]
    set.modelId = modelId ∧
    set.size = Machine.base machines machines.length ∧
    (∀ (i : Fin machines.length) (j : Fin machines[i].events.length),
      let name := machines[i].lead ++ machines[i].events[j]
      let first := Machine.base machines i + 4 * j
      set.declarations[first]? = some ⟨"may_" ++ name ++ "?", boolean, []⟩ ∧
      set.declarations[first + 1]? = some ⟨name, boolean, keywords⟩ ∧
      set.declarations[first + 2]? = some ⟨name ++ "!", boolean, keywords⟩ ∧
      set.declarations[first + 3]? =
        some ⟨name ++ "_without_validation!", boolean, keywords⟩) ∧
    (∀ (i : Fin machines.length) (j : Fin machines[i].states.length),
      set.declarations[Machine.base machines i + 4 * machines[i].events.length + j]? =
        some ⟨machines[i].lead ++ machines[i].states[j] ++ "?", boolean, []⟩) ∧
    (∀ others, (types.synthesize modelId (machines ++ others)).declarations =
      set.declarations ++ (types.synthesize modelId others).declarations) ∧
    ∀ declaration, set.declarations.count declaration =
      (machines.map fun machine =>
        (types.synthesize modelId [machine]).declarations.count declaration).sum := by
  intro set boolean keywords
  refine ⟨rfl, ?_, ?_, ?_, ?_, ?_⟩
  · simp [set, synthesize, DeclarationSet.size, Machine.base, List.length_flatMap,
      length_ofMachine]
  · intro i j name first
    have hevent : ∀ k < 4, set.declarations[first + k]? = (types.ofEvent name)[k]? := by
      intro k hk
      have hwidth : 4 * j + k < machines[i].width := by
        have hj := j.isLt
        unfold Machine.width
        omega
      rw [Nat.add_assoc, getElem?_synthesize i.isLt hwidth]
      exact getElem?_ofMachine_event j.isLt hk
    exact ⟨hevent 0 (by omega), hevent 1 (by omega), hevent 2 (by omega), hevent 3 (by omega)⟩
  · intro i j
    have hwidth : 4 * machines[i].events.length + j < machines[i].width :=
      Nat.add_lt_add_left j.isLt _
    rw [Nat.add_assoc, getElem?_synthesize i.isLt hwidth]
    exact getElem?_ofMachine_state j.isLt
  · intro others
    exact List.flatMap_append
  · intro declaration
    simp [set, synthesize, List.count_flatMap, Function.comp_def]

end TypeVocabulary

end MachineRbi
