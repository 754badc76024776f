import MachineRbi.Proofs.Rbi.Grammar

/-!
# Files and rejected additions

A file grows by calls: each opens a class or declares a method in one of the classes that are open.
A call whose names do not pass their checks is rejected, and then the file stays as it was.
`leavesNoTrace` tells a history with rejected calls from the one without them: nothing that can be
rendered does.
-/

namespace MachineRbi.Rbi

/-- A call that adds to a file: it opens a class, or it declares a method in the class at an index,
where only classes that were added count. -/
inductive Call where
  | openClass (name : WideText)
  | declare (index : Nat) (method : Declaration)
  deriving DecidableEq

namespace Call

/-- The names of the call pass their checks. -/
def IsLegal : Call → Prop
  | .openClass name => isConstantPath name = true
  | .declare _ method => Definable method

/-- Whether names pass their checks is decided name by name. -/
instance : DecidablePred IsLegal
  | .openClass name => inferInstanceAs (Decidable (isConstantPath name = true))
  | .declare _ method => inferInstanceAs (Decidable (Definable method))

/-- The name of the class that the call opens. -/
def opened? : Call → Option String
  | .openClass name => some name.shown
  | .declare _ _ => none

/-- The method that the call declares in the class at the index. -/
def declaredIn? (index : Nat) : Call → Option Declaration
  | .openClass _ => none
  | .declare target method => if target = index then some method else none

end Call

namespace File

/-- The file with what the call adds, or why the call is rejected. -/
def answer (file : File) : Call → Except Rejection File
  | .openClass name => file.addClass name
  | .declare index method => file.addMethod index method

/-- The call is not rejected. -/
def Takes (file : File) (call : Call) : Prop :=
  ∃ grown, file.answer call = .ok grown

/-- The file behind a call, as it was if the call is rejected. -/
def next (file : File) (call : Call) : File :=
  match file.answer call with
  | .ok grown => grown
  | .error _ => file

/-- The file behind a list of calls. -/
def after (file : File) (calls : List Call) : File :=
  calls.foldl next file

/-- The calls of a list that are not rejected. -/
def taken (file : File) : List Call → List Call
  | [] => []
  | call :: rest =>
    match file.answer call with
    | .ok grown => call :: grown.taken rest
    | .error _ => file.taken rest

/-- A method is declared only in a class of the file. -/
def Has (file : File) : Call → Prop
  | .openClass _ => True
  | .declare index _ => index < file.classes.length

/-- The calls can be made one behind the other: every method is declared in a class that is there by
then. -/
def IsHistory (file : File) : List Call → Prop
  | [] => True
  | call :: rest => file.Has call ∧ (file.next call).IsHistory rest

/-- Whether a file has the class of a call is seen from the index. -/
instance (file : File) : DecidablePred file.Has
  | .openClass _ => .isTrue trivial
  | .declare index _ => inferInstanceAs (Decidable (index < file.classes.length))

/-- Whether calls can be made one behind the other is decided call by call. -/
instance decidableIsHistory : (file : File) → DecidablePred file.IsHistory
  | _, [] => .isTrue trivial
  | file, call :: rest =>
    have := decidableIsHistory (file.next call) rest
    inferInstanceAs (Decidable (_ ∧ _))

/-- The methods of the class at an index; no class, no methods. -/
def methodsAt (file : File) (index : Nat) : List Declaration :=
  (file.classes[index]?).elim [] (·.methods)

/-- The file with what the call adds if nothing is checked. -/
def adding (file : File) : Call → File
  | .openClass name => { file with classes := file.classes ++ [⟨name.shown, []⟩] }
  | .declare index method =>
    { file with classes := file.classes.modify index fun scope =>
        { scope with methods := scope.methods ++ [method] } }

/-! ## One call -/

variable {file : File} {call : Call} {calls : List Call}

/-- What a file answers is said by the call alone, but for what is there already. -/
theorem answer_eq_ok_iff {grown : File} (h : file.Has call) :
    file.answer call = .ok grown ↔ call.IsLegal ∧ file.adding call = grown := by
  cases call with
  | openClass name =>
      unfold answer addClass ClassScope.new Call.IsLegal adding
      cases hpath : isConstantPath name <;> simp [Except.map, hpath]
  | declare index method =>
      have hscope : file.classes[index]? = some (file.classes.get ⟨index, h⟩) :=
        List.getElem?_eq_getElem h
      unfold answer addMethod ClassScope.addMethod Call.IsLegal adding
      dsimp only
      rw [List.modify_eq_set_getElem?, hscope]
      simp only [map_eq_ok_iff, checkMethod_eq_ok_iff]
      constructor
      · rintro ⟨scope, ⟨checked, ⟨hdefinable, rfl⟩, rfl⟩, rfl⟩
        exact ⟨hdefinable, rfl⟩
      · rintro ⟨hdefinable, rfl⟩
        exact ⟨_, ⟨method, ⟨hdefinable, rfl⟩, rfl⟩, rfl⟩

/-- Whether a file takes a call is said by the call alone. -/
theorem takes_iff (h : file.Has call) : file.Takes call ↔ call.IsLegal := by
  simp only [Takes, answer_eq_ok_iff h, exists_and_left, exists_eq', and_true]

/-- A legal call adds what it can add. -/
theorem next_of_isLegal (h : file.Has call) (hlegal : call.IsLegal) :
    file.next call = file.adding call := by
  unfold next
  rw [(answer_eq_ok_iff h).mpr ⟨hlegal, rfl⟩]

/-- A rejected call changes nothing. -/
theorem next_of_not_isLegal (h : file.Has call) (hnot : ¬ call.IsLegal) :
    file.next call = file := by
  unfold next
  split
  next grown hanswer => exact absurd ((answer_eq_ok_iff h).mp hanswer).1 hnot
  next => rfl

/-- A call adds its method behind those of its class, and to no other class. -/
theorem methodsAt_adding (h : file.Has call) (index : Nat) :
    (file.adding call).methodsAt index =
      file.methodsAt index ++ (call.declaredIn? index).toList := by
  unfold methodsAt adding Call.declaredIn?
  cases call with
  | openClass name =>
      dsimp only
      rw [Option.toList_none, List.append_nil]
      by_cases hlt : index < file.classes.length
      · rw [List.getElem?_append_left hlt]
      · -- The new class has no methods yet, as little as a class that is not there.
        have hle : file.classes.length ≤ index := Nat.le_of_not_lt hlt
        rw [List.getElem?_append_right hle, List.getElem?_eq_none hle]
        cases index - file.classes.length <;> rfl
  | declare changed method =>
      dsimp only
      rw [List.getElem?_modify]
      split
      next heq =>
        subst heq
        simp [List.getElem?_eq_getElem (show changed < file.classes.length from h)]
      next hne =>
        simp

/-- A call adds its class behind the others. -/
theorem names_adding (file : File) (call : Call) :
    (file.adding call).classes.map (·.name) =
      file.classes.map (·.name) ++ call.opened?.toList := by
  cases call with
  | openClass name => simp [adding, Call.opened?]
  | declare index method =>
      simp only [adding, Call.opened?, Option.toList_none, List.append_nil]
      refine List.ext_getElem? fun i => ?_
      rw [List.getElem?_map, List.getElem?_map, List.getElem?_modify]
      cases file.classes[i]? with
      | none => rfl
      | some scope =>
          by_cases heq : index = i <;> simp [heq]

/-! ## Lists of calls -/

/-- The first call of a list is made before the others. -/
theorem after_cons (file : File) (call : Call) (rest : List Call) :
    file.after (call :: rest) = (file.next call).after rest :=
  rfl

/-- What a list of calls leaves of a file is what those of them leave that are not rejected. -/
theorem after_taken (file : File) (calls : List Call) :
    file.after (file.taken calls) = file.after calls := by
  induction calls generalizing file with
  | nil => rfl
  | cons call rest ih =>
      rw [after_cons]
      unfold taken next
      split
      next grown hanswer => rw [after_cons, next, hanswer, ih]
      next rejection hanswer => exact ih file

/-- A call of a history is made on what the calls before it leave. -/
theorem has_of_isHistory {before rest : List Call}
    (h : file.IsHistory (before ++ call :: rest)) : (file.after before).Has call := by
  induction before generalizing file with
  | nil => exact h.1
  | cons first before ih => exact ih h.2

/-- The taken calls of a history can be made without the others. -/
theorem isHistory_taken (h : file.IsHistory calls) : file.IsHistory (file.taken calls) := by
  induction calls generalizing file with
  | nil => trivial
  | cons call rest ih =>
      have hrest := ih h.2
      unfold next at hrest
      unfold taken
      split
      next grown hanswer =>
        rw [hanswer] at hrest
        refine ⟨h.1, ?_⟩
        rwa [next, hanswer]
      next rejection hanswer => rwa [hanswer] at hrest

/-- Of the calls of a history those are taken that are legal. -/
theorem taken_eq_filter (h : file.IsHistory calls) :
    file.taken calls = calls.filter (·.IsLegal) := by
  induction calls generalizing file with
  | nil => rfl
  | cons call rest ih =>
      have hrest := ih h.2
      unfold taken
      split
      next grown hanswer =>
        obtain ⟨hlegal, rfl⟩ := (answer_eq_ok_iff h.1).mp hanswer
        rw [next_of_isLegal h.1 hlegal] at hrest
        rw [hrest, List.filter_cons_of_pos (by simpa using hlegal)]
      next rejection hanswer =>
        have hnot : ¬ call.IsLegal := fun hlegal => by
          rw [(answer_eq_ok_iff h.1).mpr ⟨hlegal, rfl⟩] at hanswer
          cases hanswer
        rw [next_of_not_isLegal h.1 hnot] at hrest
        rw [hrest, List.filter_cons_of_neg (by simpa using hnot)]

/-- What every call adds to the end of a list, all taken calls add to it in their order. -/
theorem collect_after {α : Type} (collect : File → List α) (part? : Call → Option α)
    (hadding : ∀ file call, file.Has call →
      collect (file.adding call) = collect file ++ (part? call).toList)
    (h : file.IsHistory calls) :
    collect (file.after calls) = collect file ++ (file.taken calls).filterMap part? := by
  rw [taken_eq_filter h]
  induction calls generalizing file with
  | nil => simp [after]
  | cons call rest ih =>
      have hrest := ih h.2
      rw [after_cons, hrest]
      by_cases hlegal : call.IsLegal
      · rw [next_of_isLegal h.1 hlegal, hadding file call h.1,
          List.filter_cons_of_pos (by simpa using hlegal)]
        cases hpart : part? call <;> simp [hpart]
      · rw [next_of_not_isLegal h.1 hlegal, List.filter_cons_of_neg (by simpa using hlegal)]

end File

/-- A history on a new file with this header: each call is taken or rejected by itself, whatever
came before; without the rejected calls it is a history that leaves the same to render; and the
classes and the methods of each class are those of the taken calls in their order. -/
structure LeavesNoTrace (header : List String) (calls : List Call) : Prop where
  verdict : ∀ before call rest, calls = before ++ call :: rest →
    ((File.after ⟨header, []⟩ before).Takes call ↔ call.IsLegal)
  isHistory : File.IsHistory ⟨header, []⟩ (File.taken ⟨header, []⟩ calls)
  text : (File.after ⟨header, []⟩ calls).render =
    (File.after ⟨header, []⟩ (File.taken ⟨header, []⟩ calls)).render
  classLines : ∀ index level : Nat,
    (File.after ⟨header, []⟩ calls).classes[index]?.map (ClassScope.lines level) =
      (File.after ⟨header, []⟩ (File.taken ⟨header, []⟩ calls)).classes[index]?.map
        (ClassScope.lines level)
  names : (File.after ⟨header, []⟩ calls).classes.map (·.name) =
    (File.taken ⟨header, []⟩ calls).filterMap (·.opened?)
  methods : ∀ index, (File.after ⟨header, []⟩ calls).methodsAt index =
    (File.taken ⟨header, []⟩ calls).filterMap (·.declaredIn? index)

/-- In a history of calls on a new file each call is taken exactly if it is legal by itself, and the
file that is left renders as if the rejected calls had not been made: it has the classes and the
methods of the taken calls, in their order. -/
theorem leavesNoTrace (header : List String) {calls : List Call}
    (h : File.IsHistory ⟨header, []⟩ calls) : LeavesNoTrace header calls where
  verdict := by
    rintro before call rest rfl
    exact File.takes_iff (File.has_of_isHistory h)
  isHistory := File.isHistory_taken h
  text := by
    rw [File.after_taken]
  classLines := fun index level => by
    rw [File.after_taken]
  names := File.collect_after (·.classes.map (·.name)) Call.opened?
    (fun file call _ => File.names_adding file call) h
  methods := fun index => File.collect_after (·.methodsAt index) (Call.declaredIn? index)
    (fun _ _ hhas => File.methodsAt_adding hhas index) h

/-- Two classes with methods added in turns; rejected are a class, a method for its name, and one
for its second parameter. -/
theorem leavesNoTrace_lampAndDoor :
    let calls : List Call := [.openClass "Lamp", .openClass "lamp", .declare 0 ⟨"on", none, []⟩,
      .openClass "Door", .declare 0 ⟨"dim down", none, []⟩,
      .declare 1 ⟨"open", none, [⟨"at", none, false⟩, ⟨"who?", none, false⟩]⟩,
      .declare 1 ⟨"close", none, [⟨"at", none, false⟩]⟩, .declare 0 ⟨"off", none, []⟩]
    File.IsHistory ⟨["# header"], []⟩ calls ∧
      (File.taken ⟨["# header"], []⟩ calls).length = 5 ∧ LeavesNoTrace ["# header"] calls := by
  intro calls
  have hhistory : File.IsHistory ⟨["# header"], []⟩ calls := by
    decide
  exact ⟨hhistory, by decide, leavesNoTrace ["# header"] hhistory⟩

end MachineRbi.Rbi
