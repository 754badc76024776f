import MachineRbi.Text.Wide

/-!
# Tokens of a YAML text

The marks and scalars of a text with its indentation made explicit: a block collection starts with
a token of its own and ends with `blockEnd`, and every key of a mapping comes after `key`. A text
can fail to be a document at all, or a scalar of it can have the shape of its type without having a
value of it.
-/

namespace MachineRbi.Yaml

/-- Why a text has no value. -/
inductive Fault where
  /-- The text is not one document, or asks for a kind of value that documents do not have. -/
  | malformed
  /-- The bytes are not text. -/
  | undecodable
  /-- A number, a date or a character code that does not exist. -/
  | impossible
  /-- A character code or a place of a number that is beyond all limits. -/
  | outOfRange
  /-- A truth value that is none of the known words. -/
  | unknownWord
  /-- A point in time that is not written as one. -/
  | notTimestamp
  /-- A point in time that is written as a mapping. -/
  | notText
  /-- A number without a single digit or sign. -/
  | emptyNumber
  /-- More collections inside each other than the stack has room for, or a value that stands for
  itself. -/
  | tooDeep
  deriving DecidableEq, Repr

/-- An instruction before a document. -/
inductive Directive where
  /-- The version of the language. -/
  | version (major minor : Nat)
  /-- What a tag handle stands for. -/
  | handle (name expansion : String)
  /-- Any other instruction, which has no effect. -/
  | other
  deriving DecidableEq, Repr

/-- A token. -/
inductive Token where
  | directive (directive : Directive)
  | documentStart
  | documentEnd
  | blockSequenceStart
  | blockMappingStart
  | blockEnd
  | flowSequenceStart
  | flowSequenceEnd
  | flowMappingStart
  | flowMappingEnd
  | blockEntry
  | flowEntry
  | key
  | value
  | alias (name : String)
  | anchor (name : String)
  | tag (handle? : Option String) (suffix : String)
  | scalar (text : WideText) (plain : Bool)
  | streamEnd
  deriving DecidableEq, Repr

end MachineRbi.Yaml
