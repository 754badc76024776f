import MachineRbi.Text.Wide

/-!
# Console lines

What a run tells its user while it works. Every line names the project. Warnings and errors go to
the error stream and say what they are; a quiet console leaves out all else. The streams are not
terminals, so colours and other control sequences are taken out of every line.
-/

namespace MachineRbi

/-- The kinds of lines. -/
inductive NoticeKind where
  | step
  | warning
  | error
  deriving DecidableEq, Repr

/-- What has been written to the two streams. -/
structure Output where
  out : String := ""
  err : String := ""
  deriving DecidableEq, Repr

/-- The texts of two outputs after each other. -/
def Output.append (first second : Output) : Output :=
  ⟨first.out ++ second.out, first.err ++ second.err⟩

/-- Where the output stream leads. -/
inductive Sink where
  /-- To bytes, and none stand for half of a surrogate pair. -/
  | bytes
  /-- To a text in memory, which takes every code point. -/
  | memory
  deriving DecidableEq, Repr

/-- The line can be written there. -/
def Sink.takes (sink : Sink) (line : WideText) : Bool :=
  sink = .memory || !line.hasHalf

/-- Only a stream of bytes does not take a line, and only one with half of a surrogate pair. -/
theorem Sink.takes_eq_false_iff {sink : Sink} {line : WideText} :
    sink.takes line = false ↔ sink = .bytes ∧ line.hasHalf = true := by
  cases sink <;> simp [takes]

/-- A line of characters is taken everywhere. -/
@[simp]
theorem Sink.takes_ofString (sink : Sink) (line : String) : sink.takes line = true := by
  simp [takes]

/-- A character of the parameters of a control sequence. -/
def isParameter (c : Char) : Bool :=
  c = ';' || c = '?' || c.isDigit

/-- The rest behind a control sequence that starts with an escape and a bracket, if the text starts
with one. -/
def afterControl? : List Char → Option (List Char)
  | '\x1b' :: '[' :: rest =>
    match rest.dropWhile isParameter with
    | c :: rest => if c.isAlpha then some rest else none
    | [] => none
  | _ => none

/-- Dropping a control sequence shortens a text. -/
theorem afterControl?_length {cs rest : List Char} (h : afterControl? cs = some rest) :
    rest.length < cs.length := by
  unfold afterControl? at h
  split at h
  · next tail =>
    have hdrop := (List.dropWhile_sublist isParameter (l := tail)).length_le
    split at h
    · next c others heq =>
      rw [heq] at hdrop
      split at h
      · cases h
        simp only [List.length_cons] at hdrop ⊢
        omega
      · cases h
    · cases h
  · cases h

/-- A text without its control sequences. -/
def dropControls (cs : List Char) : List Char :=
  match _h : afterControl? cs with
  | some rest => dropControls rest
  | none =>
    match cs with
    | [] => []
    | c :: rest => c :: dropControls rest
termination_by cs.length
decreasing_by
  · exact afterControl?_length _h
  · simp

/-- A line as a stream takes it. -/
def printed (line : String) : String :=
  String.ofList (dropControls line.toList) ++ "\n"

/-- The look of the lines of a project. -/
structure Console where
  project : String
  color : String
  welcome : String
  quiet : Bool := false
  /-- What the user has set to ask for no colours. -/
  noColor? : Option String := none
  deriving DecidableEq, Repr

namespace Console

/-- The colours that a line can have. -/
def colors : List String :=
  let plain := ["black", "red", "green", "yellow", "blue", "magenta", "cyan", "white"]
  plain ++ plain.map ("bright_" ++ ·) ++ ["reset"]

/-- Colours are asked for unless the user has set anything against them. -/
def useColor (console : Console) : Bool :=
  console.noColor?.getD "" = ""

/-- A line of the project. -/
def line (console : Console) (text : String) : String :=
  printed ("[" ++ console.project ++ "] " ++ text)

/-- The words before a text of a kind. -/
def label : NoticeKind → String
  | .step => ""
  | .warning => "WARNING: "
  | .error => "ERROR: "

/-- What a notice writes. -/
def notice (console : Console) (kind : NoticeKind) (text : String) : Output :=
  let line := console.line (label kind ++ text)
  match kind with
  | .step => if console.quiet then {} else { out := line }
  | _ => { err := line }

/-- The colour of the greeting is in use and does not exist. -/
def colorFails (console : Console) : Bool :=
  !console.quiet && console.useColor && console.color ≠ "" && !colors.contains console.color

/-- What the greeting writes, unless its colour does not exist. -/
def greeting (console : Console) : Option Output :=
  if console.colorFails then none else some (console.notice .step console.welcome)

end Console

end MachineRbi
