import MachineRbi.Text.Wide

/-!
# Method declarations

What is known of a method without its body: its name, its parameters with their types, and the
type that it returns. Types are texts that only the reader of an interface file understands.
-/

namespace MachineRbi

/-- A parameter of a method. A splat takes all keywords that no other parameter takes. -/
structure Parameter where
  name : String
  type? : Option String
  splat : Bool := false
  deriving DecidableEq, Repr

/-- A method without its body. -/
structure Declaration where
  name : WideText
  returnType? : Option String
  parameters : List Parameter := []
  deriving DecidableEq, Repr

/-- The declarations of one model, in order. -/
structure DeclarationSet where
  modelId : WideText
  declarations : List Declaration := []
  deriving DecidableEq, Repr

/-- The names of the declarations, in order. -/
def DeclarationSet.names (set : DeclarationSet) : List WideText :=
  set.declarations.map (·.name)

/-- How many declarations there are; equal ones count each. -/
def DeclarationSet.size (set : DeclarationSet) : Nat :=
  set.declarations.length

/-- A type on a line; the word stands for one that is missing. -/
def typeText (type? : Option String) : String :=
  type?.getD "None"

/-- A parameter on a line. -/
def Parameter.line (parameter : Parameter) : String :=
  (if parameter.splat then "**" else "") ++ parameter.name ++ ": " ++ typeText parameter.type?

/-- A declaration on a line. -/
def Declaration.line (declaration : Declaration) : WideText :=
  declaration.name ++ ("(" ++ ", ".intercalate (declaration.parameters.map Parameter.line) ++
    ") -> " ++ typeText declaration.returnType? : String)

end MachineRbi
