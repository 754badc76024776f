import MachineRbi.CommandLine.Arguments

/-!
# Commands

What a user can ask for: to generate or check interface files, to see the declarations of one model,
or to list the models of a manifest.
-/

namespace MachineRbi.CommandLine

/-- What a user asks for. An option that is not given is left to the settings. -/
inductive Command where
  | generate (manifest? outputDir? : Option String) (check verbose : Bool)
  | inspect (model : String) (manifest? : Option String) (json verbose : Bool)
  | models (manifest? : Option String)
  deriving DecidableEq, Repr

/-- What a command line says. -/
inductive Request where
  | perform (command : Command)
  | help
  | misuse
  deriving DecidableEq, Repr

/-- The options before the name of a command. -/
def topGrammar : Grammar where
  long := [("help", .help)]

/-- The options of `generate`. -/
def generateGrammar : Grammar where
  long := [("manifest", .manifest), ("output-dir", .outputDir), ("check", .check),
    ("verbose", .verbose), ("help", .help)]
  short := [('m', .manifest), ('o', .outputDir), ('v', .verbose)]

/-- The options of `inspect`. -/
def inspectGrammar : Grammar where
  long := [("manifest", .manifest), ("json", .json), ("verbose", .verbose), ("help", .help)]
  short := [('m', .manifest), ('v', .verbose)]

/-- The options of `models`. -/
def modelsGrammar : Grammar where
  long := [("manifest", .manifest), ("help", .help)]
  short := [('m', .manifest)]

/-- Reads the words behind the name of a command. Help is given even if words are missing or too
many, but not if an option is wrong. -/
def Request.ofWords (grammar : Grammar) (words : List String)
    (command? : Arguments → Option Command) : Request :=
  match Arguments.ofWords? grammar true words with
  | none => .misuse
  | some arguments =>
    if arguments.has .help then .help
    else
      match command? arguments with
      | some command => .perform command
      | none => .misuse

/-- The command `generate` with these arguments. -/
def generate? (arguments : Arguments) : Option Command :=
  match arguments.positional with
  | [] => some (.generate (arguments.value? .manifest) (arguments.value? .outputDir)
      (arguments.has .check) (arguments.has .verbose))
  | _ => none

/-- The command `inspect` with these arguments. -/
def inspect? (arguments : Arguments) : Option Command :=
  match arguments.positional with
  | [model] => some (.inspect model (arguments.value? .manifest) (arguments.has .json)
      (arguments.has .verbose))
  | _ => none

/-- The command `models` with these arguments. -/
def models? (arguments : Arguments) : Option Command :=
  match arguments.positional with
  | [] => some (.models (arguments.value? .manifest))
  | _ => none

/-- Help is asked for before the name of a command. No word may be wrong there. -/
def asksForHelp (words : List String) : Bool :=
  (Arguments.ofWords? topGrammar false words).any (·.has .help)

/-- What the words of a command line ask for. Words that name no command are read once more for an
option among them, which two hyphens can have hidden. -/
def Request.parse (words : List String) : Request :=
  match Arguments.ofWords? topGrammar false words with
  | none => .misuse
  | some arguments =>
    if arguments.has .help then .help
    else
      match arguments.positional with
      | "generate" :: words => .ofWords generateGrammar words generate?
      | "inspect" :: words => .ofWords inspectGrammar words inspect?
      | "models" :: words => .ofWords modelsGrammar words models?
      | words => if asksForHelp words then .help else .misuse

end MachineRbi.CommandLine
