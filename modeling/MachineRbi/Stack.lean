/-!
# Room on the stack

Some work of the program goes as deep as its input does: making the directories that are missing on
the way of a path, reading collections inside collections, and writing values that have parts. Each
level takes room on the stack, and how much is left depends on what stands on it when the work
starts, so none of these limits is a constant. A `Stack` says how far each kind of work can go, and
everything that reaches such work takes one.
-/

namespace MachineRbi

/-- How far work that goes into depth can go. -/
class Stack where
  /-- So many directories can be missing on the way of a path that is to be made. -/
  missing : Nat
  /-- One directory can be made. -/
  missing_pos : 0 < missing
  /-- So many collections of a YAML text can stand inside each other. -/
  nodes : Nat
  /-- The arrays and tables around a value of a TOML text can have this weight together. -/
  tables : Nat
  /-- So many values can stand inside each other where a scope is written. -/
  scopes : Nat
  /-- So many values can stand inside each other where the name of an event or a state is
  written. -/
  names : Nat

namespace Stack

/-- What is left of the stack of the program at each kind of work. -/
scoped instance program : Stack where
  missing := 981
  missing_pos := by decide
  nodes := 487
  tables := 981
  scopes := 981
  names := 979

end Stack

end MachineRbi
