import MachineRbi.Declaration
import MachineRbi.Text.Basic

/-!
# State machines and their declarations

A model owns state machines. Each has a name among those of its model, its events and its states
in the order in which they were declared, and perhaps a scope that leads the names of the methods
that come from it. Names are wide texts, because a manifest can spell halves of surrogate pairs.

A state machine gives its model four methods for every event and one for every state. `synthesize`
lists them machine by machine, events before states; machines that share a name give the same
declaration twice.
-/

namespace MachineRbi

/-- A state machine of a model. -/
structure Machine where
  name : WideText := "default"
  scope? : Option WideText := none
  events : List WideText := []
  states : List WideText := []
  deriving DecidableEq, Repr

/-- What the scope puts before the names of events and states: itself and an underscore, or
nothing if it is missing or blank. -/
def scopeLead : Option WideText → WideText
  | none => ""
  | some scope => if scope.chars.all Text.isBlank then "" else scope ++ "_"

/-- The names of the two types that declarations need. -/
structure TypeVocabulary where
  boolean : String := "T::Boolean"
  untyped : String := "T.untyped"
  deriving DecidableEq, Repr

namespace TypeVocabulary

/-- The parameters of a method that fires an event: it takes any keywords. -/
def eventParameters (types : TypeVocabulary) : List Parameter :=
  [⟨"params", some types.untyped, true⟩]

/-- The declarations of an event: asking for it, and firing it in three ways. -/
def ofEvent (types : TypeVocabulary) (event : WideText) : List Declaration :=
  [⟨"may_" ++ event ++ "?", some types.boolean, []⟩,
   ⟨event, some types.boolean, types.eventParameters⟩,
   ⟨event ++ "!", some types.boolean, types.eventParameters⟩,
   ⟨event ++ "_without_validation!", some types.boolean, types.eventParameters⟩]

/-- The declaration of a state: asking for it. -/
def ofState (types : TypeVocabulary) (state : WideText) : Declaration :=
  ⟨state ++ "?", some types.boolean, []⟩

/-- The declarations of a machine, whose scope leads the names of its events and states. -/
def ofMachine (types : TypeVocabulary) (machine : Machine) : List Declaration :=
  machine.events.flatMap (fun event => types.ofEvent (scopeLead machine.scope? ++ event)) ++
    machine.states.map fun state => types.ofState (scopeLead machine.scope? ++ state)

/-- The declarations of all machines of a model. -/
def synthesize (types : TypeVocabulary) (modelId : WideText) (machines : List Machine) :
    DeclarationSet :=
  ⟨modelId, machines.flatMap types.ofMachine⟩

end TypeVocabulary

end MachineRbi
