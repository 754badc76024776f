import MachineRbi.Declaration
import MachineRbi.Rbi.Name

/-!
# Interface files

An interface file has a header and then classes with methods. Names are checked when a class or a
method is added, so a file never holds a name that Ruby cannot read, and a rejected addition
changes nothing. A method takes two lines, its signature and its definition; an empty line stands
between methods and between classes.
-/

namespace MachineRbi.Rbi

/-- Why a class or a method cannot be added. -/
inductive Rejection where
  | constantPath (name : WideText)
  | methodName (name : WideText) (className : String)
  | parameterName (name : String) (method : WideText)
  deriving DecidableEq, Repr

/-- The wording of a rejection. -/
def Rejection.message : Rejection → String
  | .constantPath name => "'" ++ name.shown ++ "' is not a valid Ruby constant path"
  | .methodName name className =>
    "'" ++ name.shown ++ "' is not a valid Ruby method name (in class " ++ className ++ ")"
  | .parameterName name method =>
    "'" ++ name ++ "' is not a valid parameter name (method " ++ method.shown ++ ")"

/-- A class with its methods, in the order in which they were added. -/
structure ClassScope where
  name : String
  methods : List Declaration := []
  deriving DecidableEq, Repr

/-- A file: the lines of its header, and its classes in the order in which they were added. -/
structure File where
  header : List String := []
  classes : List ClassScope := []
  deriving DecidableEq, Repr

/-- The type, or another one if it is missing or empty. -/
def typeOr (fallback : String) (type? : Option String) : String :=
  match type? with
  | some type => if type = "" then fallback else type
  | none => fallback

/-- A parameter in a signature. -/
def signatureParameter (parameter : Parameter) : String :=
  parameter.name ++ ": " ++ typeOr "T.untyped" parameter.type?

/-- A parameter in a definition. -/
def definitionParameter (parameter : Parameter) : String :=
  (if parameter.splat then "**" else "") ++ parameter.name

/-- What a signature says about the result. -/
def resultClause (type? : Option String) : String :=
  match type? with
  | some type => if type = "" then "void" else "returns(" ++ type ++ ")"
  | none => "void"

/-- The signature of a method. -/
def signatureLine (method : Declaration) : String :=
  let parameters :=
    if method.parameters.isEmpty then ""
    else "params(" ++ ", ".intercalate (method.parameters.map signatureParameter) ++ ")."
  "sig \x7b " ++ parameters ++ resultClause method.returnType? ++ " \x7d"

/-- The definition of a method. -/
def definitionLine (method : Declaration) : String :=
  let parameters :=
    if method.parameters.isEmpty then ""
    else "(" ++ ", ".intercalate (method.parameters.map definitionParameter) ++ ")"
  "def " ++ method.name.shown ++ parameters ++ "; end"

/-- The blanks before a line at a level. -/
def indent (level : Nat) : String :=
  String.ofList (List.replicate (2 * level) ' ')

/-- The lines of methods at a level. -/
def methodLines (level : Nat) : List Declaration → List String
  | [] => []
  | [method] => [indent level ++ signatureLine method, indent level ++ definitionLine method]
  | method :: next :: rest =>
    (indent level ++ signatureLine method) :: (indent level ++ definitionLine method) :: "" ::
      methodLines level (next :: rest)

/-- The lines of a class at a level. -/
def ClassScope.lines (level : Nat) (scope : ClassScope) : List String :=
  (indent level ++ "class " ++ scope.name) :: methodLines (level + 1) scope.methods ++
    [indent level ++ "end"]

/-- Lines with a class behind them, and an empty line between if there are any. -/
def appendClass (lines : List String) (scope : ClassScope) : List String :=
  if lines.isEmpty then scope.lines 0 else lines ++ "" :: scope.lines 0

/-- The lines of a file. -/
def File.lines (file : File) : List String :=
  file.classes.foldl appendClass file.header

/-- The text of a file, with a line break at its end. -/
def File.render (file : File) : String :=
  "\n".intercalate file.lines ++ "\n"

/-- A class of this name without methods. -/
def ClassScope.new (name : WideText) : Except Rejection ClassScope :=
  if isConstantPath name then .ok ⟨name.shown, []⟩ else .error (.constantPath name)

/-- The method as it stands, if a class of this name can hold it. -/
def checkMethod (className : String) (method : Declaration) : Except Rejection Declaration :=
  if isMethodName method.name then
    match method.parameters.find? fun parameter => !isParameterName parameter.name with
    | some parameter => .error (.parameterName parameter.name method.name)
    | none => .ok method
  else .error (.methodName method.name className)

/-- The class with one more method. -/
def ClassScope.addMethod (scope : ClassScope) (method : Declaration) :
    Except Rejection ClassScope :=
  (checkMethod scope.name method).map fun method =>
    { scope with methods := scope.methods ++ [method] }

/-- The class with more methods, of which none may be rejected. -/
def ClassScope.addMethods (scope : ClassScope) (methods : List Declaration) :
    Except Rejection ClassScope :=
  (methods.mapM (checkMethod scope.name)).map fun methods =>
    { scope with methods := scope.methods ++ methods }

/-- The file with one more class. -/
def File.addClass (file : File) (name : WideText) : Except Rejection File :=
  (ClassScope.new name).map fun scope => { file with classes := file.classes ++ [scope] }

/-- The file with one more method in the class at an index; no class, no change. -/
def File.addMethod (file : File) (index : Nat) (method : Declaration) : Except Rejection File :=
  match file.classes[index]? with
  | some scope =>
    (scope.addMethod method).map fun scope => { file with classes := file.classes.set index scope }
  | none => .ok file

end MachineRbi.Rbi
