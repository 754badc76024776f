import MachineRbi.Proofs.Text.Wide
import MachineRbi.Synthesis

/-!
# What declarations say about state machines

State machines declare items, which are events and states with their scope before their names.
Declarations are made item by item (`synthesize_eq`), and they tell the items
(`flatMap_declare_injective`): only the declarations of an event have parameters, from the second
on, so a state that is named like the question about an event is still told from the event.
-/

namespace MachineRbi

/-- What a state machine declares. -/
inductive ItemKind where
  | event
  | state
  deriving DecidableEq, Repr

/-- An event or a state, with the scope of its machine before its name. -/
structure Item where
  kind : ItemKind
  name : WideText
  deriving DecidableEq, Repr

/-- The items of a machine, events before states. -/
def Machine.items (machine : Machine) : List Item :=
  machine.events.map (fun event => ⟨.event, scopeLead machine.scope? ++ event⟩) ++
    machine.states.map fun state => ⟨.state, scopeLead machine.scope? ++ state⟩

namespace TypeVocabulary

variable {types : TypeVocabulary}

/-- The declarations of an item. -/
def declare (types : TypeVocabulary) (item : Item) : List Declaration :=
  match item.kind with
  | .event => types.ofEvent item.name
  | .state => [types.ofState item.name]

/-- The declarations of machines are those of their items. -/
theorem synthesize_eq (types : TypeVocabulary) (modelId : WideText) (machines : List Machine) :
    types.synthesize modelId machines =
      ⟨modelId, (machines.flatMap Machine.items).flatMap types.declare⟩ := by
  have hmachines : types.ofMachine = fun machine => machine.items.flatMap types.declare := by
    funext machine
    rw [Machine.items, List.flatMap_append, List.flatMap_map, List.flatMap_map, ofMachine,
      List.map_eq_flatMap]
    rfl
  rw [synthesize, List.flatMap_assoc, hmachines]

/-- An item comes first in its declarations without parameters. -/
theorem declare_eq_cons (types : TypeVocabulary) (item : Item) :
    ∃ first rest, types.declare item = first :: rest ∧ first.parameters = [] := by
  obtain ⟨kind, name⟩ := item
  cases kind with
  | event => exact ⟨_, _, rfl, rfl⟩
  | state => exact ⟨_, _, rfl, rfl⟩

/-- No declarations of items follow the first of an event as the others of the event do. -/
theorem ofEvent_ne_ofState {event state : WideText} {rest : List Declaration}
    {items : List Item}
    (h : types.ofEvent event ++ rest = types.ofState state :: items.flatMap types.declare) :
    False := by
  -- Firing the event comes second and takes parameters, which no item starts with.
  have htail := (List.cons.inj h).2
  cases items with
  | nil => cases htail
  | cons item others =>
      obtain ⟨first, later, hfirst, hparameters⟩ := types.declare_eq_cons item
      rw [List.flatMap_cons, hfirst] at htail
      have hsecond := (List.cons.inj htail).1
      rw [← hsecond] at hparameters
      cases hparameters

/-- Declarations tell the items that they are of. -/
theorem flatMap_declare_injective (types : TypeVocabulary) {items others : List Item}
    (h : items.flatMap types.declare = others.flatMap types.declare) : items = others := by
  induction items generalizing others with
  | nil =>
      cases others with
      | nil => rfl
      | cons other rest =>
          obtain ⟨first, later, hfirst, -⟩ := types.declare_eq_cons other
          rw [List.flatMap_cons, hfirst] at h
          cases h
  | cons item rest ih =>
      cases others with
      | nil =>
          obtain ⟨first, later, hfirst, -⟩ := types.declare_eq_cons item
          rw [List.flatMap_cons, hfirst] at h
          cases h
      | cons other others =>
          rw [List.flatMap_cons, List.flatMap_cons] at h
          obtain ⟨kind, name⟩ := item
          obtain ⟨kind', name'⟩ := other
          -- Items of one kind have equally many declarations, so the others start alike.
          cases kind with
          | event =>
              cases kind' with
              | event =>
                  obtain ⟨hevent, hrest⟩ := List.append_inj h rfl
                  have hname : name = name' :=
                    congrArg Declaration.name (List.cons.inj (List.cons.inj hevent).2).1
                  rw [hname, ih hrest]
              | state => exact (ofEvent_ne_ofState h).elim
          | state =>
              cases kind' with
              | event => exact (ofEvent_ne_ofState h.symm).elim
              | state =>
                  obtain ⟨hstate, hrest⟩ := List.cons.inj h
                  have hname : name = name' :=
                    WideText.append_right_cancel (congrArg Declaration.name hstate)
                  rw [hname, ih hrest]

end TypeVocabulary

end MachineRbi
