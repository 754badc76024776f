/-!
# Arguments

How the words of a command line are read. A word that starts with a hyphen names options, in a long
form behind two hyphens or as single letters in a row; all other words are positional, and so is
everything behind two bare hyphens. The value of an option is joined to it or is the next word.
-/

namespace MachineRbi.CommandLine

/-- The options of all commands. -/
inductive Switch where
  | manifest
  | outputDir
  | check
  | json
  | verbose
  | help
  deriving DecidableEq, Repr

/-- The option has a value. -/
def Switch.takesValue : Switch → Bool
  | .manifest | .outputDir => true
  | _ => false

/-- The names of the options of a command. -/
structure Grammar where
  long : List (String × Switch)
  short : List (Char × Switch) := []

/-- An option that was given, and its value if it has one. -/
abbrev Given := Switch × String

/-- What a word says on its own. -/
inductive Reading where
  | positional
  /-- All words behind are positional. -/
  | stop
  | options (given : List Given)
  /-- Options without a value, and one whose value is the next word. -/
  | open (given : List Given) (last : Switch)
  | wrong
  deriving DecidableEq, Repr

/-- The reading with one more option in front. -/
def Reading.cons (given : Given) : Reading → Reading
  | .options others => .options (given :: others)
  | .open others last => .open (given :: others) last
  | reading => reading

/-- The text before the first equality sign, and the text behind it if there is one. -/
def splitEquals (cs : List Char) : List Char × Option (List Char) :=
  match cs.dropWhile (· ≠ '=') with
  | [] => (cs, none)
  | _ :: rest => (cs.takeWhile (· ≠ '='), some rest)

namespace Grammar

/-- What letters in a row say. The rest of a word is the value of the first option that has one. -/
def readLetters (grammar : Grammar) : List Char → Reading
  | [] => .options []
  | c :: rest =>
    match grammar.short.lookup c with
    | none => .wrong
    | some switch =>
      if switch.takesValue then
        if rest.isEmpty then .open [] switch else .options [(switch, String.ofList rest)]
      else (grammar.readLetters rest).cons (switch, "")

/-- What a long option says. -/
def readLong (switch : Switch) (value? : Option (List Char)) : Reading :=
  match switch.takesValue, value? with
  | true, some value => .options [(switch, String.ofList value)]
  | true, none => .open [] switch
  | false, some _ => .wrong
  | false, none => .options [(switch, "")]

/-- What a word says. -/
def read (grammar : Grammar) (word : String) : Reading :=
  match word.toList with
  | '-' :: '-' :: [] => .stop
  | '-' :: '-' :: rest =>
    let (name, value?) := splitEquals rest
    match grammar.long.lookup (String.ofList name) with
    | some switch => readLong switch value?
    | none => .wrong
  | '-' :: c :: rest => grammar.readLetters (c :: rest)
  | _ => .positional

end Grammar

/-- The words of a command line, sorted. -/
structure Arguments where
  given : List Given := []
  positional : List String := []
  deriving DecidableEq, Repr

namespace Arguments

/-- The arguments with options in front. -/
def withGiven (given : List Given) (arguments : Arguments) : Arguments :=
  { arguments with given := given ++ arguments.given }

/-- The arguments with a positional word in front. -/
def withWord (word : String) (arguments : Arguments) : Arguments :=
  { arguments with positional := word :: arguments.positional }

/-- Sorts words. If options cannot stand behind positional words, the first of those ends the
options. -/
def ofWords? (grammar : Grammar) (mixed : Bool) : List String → Option Arguments
  | [] => some {}
  | word :: rest =>
    match grammar.read word with
    | .positional =>
      if mixed then (ofWords? grammar mixed rest).map (withWord word)
      else some { positional := word :: rest }
    | .stop => some { positional := rest }
    | .options given => (ofWords? grammar mixed rest).map (withGiven given)
    | .open given last =>
      match rest with
      | value :: rest => (ofWords? grammar mixed rest).map (withGiven (given ++ [(last, value)]))
      | [] => none
    | .wrong => none

/-- The option was given. -/
def has (arguments : Arguments) (switch : Switch) : Bool :=
  arguments.given.any (·.1 = switch)

/-- The last value of an option; an empty one counts as none. -/
def value? (arguments : Arguments) (switch : Switch) : Option String :=
  match (arguments.given.reverse.lookup switch) with
  | some value => if value = "" then none else some value
  | none => none

end Arguments

end MachineRbi.CommandLine
