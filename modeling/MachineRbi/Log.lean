/-!
# Log records

What the library notes while it works. A record has a level, the channel that it came through, and
a text.
-/

namespace MachineRbi

/-- How much a record matters. -/
inductive Level where
  | debug
  | info
  | warning
  deriving DecidableEq, Repr

/-- The name of a level in a log. -/
def Level.text : Level → String
  | .debug => "DEBUG"
  | .info => "INFO"
  | .warning => "WARNING"

/-- Where a record comes from. -/
inductive Channel where
  | settings
  | generation
  deriving DecidableEq, Repr

/-- The name of a channel in a log. -/
def Channel.text : Channel → String
  | .settings => "root"
  | .generation => "aasm_rbi.use_cases.generate_rbi"

/-- A note of what happened. -/
structure LogRecord where
  level : Level
  channel : Channel
  text : String
  deriving DecidableEq, Repr

end MachineRbi
