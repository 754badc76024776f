import MachineRbi.Rbi.File
import MachineRbi.Synthesis

/-!
# The interface file of a model

The declarations of a model fill one class of a file, below a header that says what the file is,
how to make it again, and how strictly its types are checked.
-/

namespace MachineRbi.Rbi

/-- What the header of a file says. -/
structure Emitter where
  /-- How strictly the types of a file are checked. -/
  sigil : String := "strong"
  /-- The command that makes the file again. -/
  command : String := "aasm-rbi generate"
  deriving DecidableEq, Repr

namespace Emitter

/-- The header of the file of a model. -/
def header (emitter : Emitter) (modelId : WideText) : List String :=
  ["# This is an autogenerated file for state machine methods in " ++ modelId.shown,
   "# Please rerun " ++ emitter.command ++ " to regenerate.",
   "",
   "# typed: " ++ emitter.sigil]

/-- The file of a model, with one class that holds every declaration in order. -/
def file (emitter : Emitter) (set : DeclarationSet) : Except Rejection File := do
  let scope ← (← ClassScope.new set.modelId).addMethods set.declarations
  return ⟨emitter.header set.modelId, [scope]⟩

/-- The text of the file of a model. -/
def emit (emitter : Emitter) (set : DeclarationSet) : Except Rejection String :=
  (emitter.file set).map File.render

/-- The types that the files name. -/
def types (_ : Emitter) : TypeVocabulary :=
  {}

end Emitter

end MachineRbi.Rbi
