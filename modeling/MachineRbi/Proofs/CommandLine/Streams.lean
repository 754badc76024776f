import MachineRbi.CommandLine.Session

/-!
# The two streams

What outputs write after each other is, on either stream, the texts of each in turn. A line of the
console is the text with the project before it, unless there are control sequences to take out
(`line_of_not_mem`). What a session writes is what its command writes, behind the notes about the
settings (`Session.run_eq_execute`).
-/

namespace MachineRbi

/-! ## Lines -/

/-- Without an escape there is no control sequence to drop. -/
theorem dropControls_of_not_mem {cs : List Char} (h : '\x1b' ∉ cs) : dropControls cs = cs := by
  induction cs with
  | nil => simp [dropControls, afterControl?]
  | cons c rest ih =>
      rw [List.mem_cons, not_or] at h
      have hplain : afterControl? (c :: rest) = none := by
        unfold afterControl?
        split
        next heq => exact (h.1 (List.cons.inj heq).1.symm).elim
        next => rfl
      unfold dropControls
      split
      next hafter =>
        rw [hplain] at hafter
        cases hafter
      next =>
        dsimp only
        rw [ih h.2]

/-- A line without escapes is the text with the project before it. -/
theorem Console.line_of_not_mem {console : Console} {text : String}
    (hproject : '\x1b' ∉ console.project.toList) (h : '\x1b' ∉ text.toList) :
    console.line text = "[" ++ console.project ++ "] " ++ text ++ "\n" := by
  have hline : '\x1b' ∉ ("[" ++ console.project ++ "] " ++ text).toList := by
    simp [hproject, h]
  rw [line, printed, dropControls_of_not_mem hline, String.ofList_toList]

/-- A step leaves the error stream alone. -/
@[simp] theorem Console.notice_step_err (console : Console) (text : String) :
    (console.notice .step text).err = "" := by
  unfold notice
  dsimp only
  split <;> rfl

/-- The greeting leaves the error stream alone. -/
@[simp] theorem Console.greeting_err (console : Console) :
    (console.greeting.getD {}).err = "" := by
  unfold greeting
  split
  · rfl
  · exact notice_step_err console console.welcome

/-! ## Outputs -/

/-- One output after another writes the text of both to the error stream. -/
@[simp] theorem Output.append_err (first second : Output) :
    (first.append second).err = first.err ++ second.err :=
  rfl

/-- One output after another writes the text of both to the output stream. -/
@[simp] theorem Output.append_out (first second : Output) :
    (first.append second).out = first.out ++ second.out :=
  rfl

namespace CommandLine

/-- Outputs after each other write the texts of each. -/
theorem joinOutputs_eq (outputs : List Output) :
    joinOutputs outputs =
      ⟨String.join (outputs.map (·.out)), String.join (outputs.map (·.err))⟩ := by
  have hfold : ∀ start : Output, outputs.foldl Output.append start =
      ⟨start.out ++ String.join (outputs.map (·.out)),
        start.err ++ String.join (outputs.map (·.err))⟩ := by
    induction outputs with
    | nil => simp
    | cons first rest ih =>
        intro start
        rw [List.foldl_cons, ih]
        simp [String.append_assoc]
  rw [joinOutputs, hfold]
  simp

/-- Outputs after each other write the texts of each to the error stream. -/
@[simp] theorem joinOutputs_err (outputs : List Output) :
    (joinOutputs outputs).err = String.join (outputs.map (·.err)) := by
  rw [joinOutputs_eq]

/-- Lines for the output stream leave the error stream alone. -/
@[simp] theorem showLines_err (lines : List String) : (showLines lines).err = "" := by
  rw [showLines, joinOutputs_err, List.map_map]
  induction lines with
  | nil => rfl
  | cons line rest ih => simpa using ih

/-- Lines write themselves to the output stream. -/
theorem showLines_out (lines : List String) :
    (showLines lines).out = String.join (lines.map printed) := by
  rw [showLines, joinOutputs_eq, List.map_map]
  rfl

/-! ## Sessions -/

/-- A session that has found its settings does what its command says. -/
theorem Session.run_eq_execute [Stack] {services : Services} {records : List LogRecord}
    {workspace : Workspace} {noColor? : Option String} {sink : Sink} {words : List String}
    {command : Command}
    (hstart : Services.start workspace = (.ok services, records))
    (hwords : Request.parse words = .perform command) :
    run workspace noColor? sink words =
      (execute services (Services.console noColor?) sink records workspace command).after
        (joinOutputs (records.map LogMode.early.show)) := by
  simp only [run, hstart, hwords]

end CommandLine

end MachineRbi
