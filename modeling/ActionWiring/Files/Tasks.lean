import ActionWiring.Document.Reading
import ActionWiring.Files.Workspace
import ActionWiring.Plan.Layout

namespace ActionWiring

structure Diagnostic where
  code : String
  text : String
  help : String
  deriving DecidableEq, Repr

namespace Diagnostic

def model (text : String) : Diagnostic where
  code := "actiongen::model"
  text := text
  help := "every supertype must be declared in the unit's `declarations` or `library`"

def ofLoadError (e : LoadError) : Diagnostic := model e.message

def ofPlanError : PlanError → Diagnostic
  | .model cause => model cause.message
  | .misaligned cause =>
      { code := "actiongen::misaligned_type_arguments"
        text := cause.message
        help := "supply one type argument per declared type parameter, or omit the parameters" }

def line (d : Diagnostic) : String := "[" ++ d.code ++ "] " ++ d.text ++ " (help: " ++ d.help ++ ")"

def report (d : Diagnostic) : String :=
  d.code ++ "\n\n  × " ++ d.text ++ "\n  help: " ++ d.help ++ "\n"

end Diagnostic

inductive TaskFailure where
  | inaccessible (path : String) (cause : OsError)
  | tooLarge (path : String) (size : Nat)
  | unreadable (path : String) (cause : ReadError)
  | notLoaded (path : String) (cause : LoadError)
  | notGenerated (path : String) (cause : PlanError)
  | outOfDate (output model : String)
  | notWritten (output : String) (cause : OsError)

def largestModel : Nat := 100 * 1024 * 1024

namespace TaskFailure

def message (layout : Diagnostic → String) : TaskFailure → String
  | .inaccessible path cause => "Cannot access file '" ++ path ++ "': " ++ cause.message
  | .tooLarge path size =>
      "Source file '" ++ path ++ "' is too large (" ++ toString size ++ " bytes, max " ++
        toString largestModel ++ " bytes)"
  | .unreadable path cause => "Error reading file '" ++ path ++ "': " ++ cause.message
  | .notLoaded path cause => path ++ ": " ++ layout (.ofLoadError cause)
  | .notGenerated path cause =>
      "Code generation failed for " ++ path ++ ": " ++ layout (.ofPlanError cause)
  | .outOfDate output model => output ++ " is out of date; regenerate it from " ++ model
  | .notWritten output cause => "Error writing " ++ output ++ ": " ++ cause.message

def exitStatus : TaskFailure → UInt32 := fun _ => 1

end TaskFailure

namespace Task

variable {m : Type → Type} [Monad m] [FileAccess m]

abbrev Run (m : Type → Type) (α : Type) := ExceptT TaskFailure m α

def orFail {ε α : Type} (failure : ε → TaskFailure) (outcome : Except ε α) : Run m α :=
  match outcome with
  | .ok a => pure a
  | .error e => throw (failure e)

def readModel (path : String) : Run m String := do
  let size ← orFail (.inaccessible path) (← FileAccess.size path)
  if size > largestModel then throw (.tooLarge path size)
  orFail (.unreadable path) (← FileAccess.read path)

def unitFrom (path : String) : Run m CompilationUnit := do
  let source ← readModel path
  orFail (.notLoaded path) (CompilationUnit.load source)

def generatedText (path : String) (s : Settings) : Run m String := do
  let u ← unitFrom path
  orFail (.notGenerated path) (u.generate s)

def compare (model output text : String) : Run m String := do
  match ← FileAccess.read output with
  | .ok current =>
      if current = text then return "✓ " ++ output ++ " is up to date\n"
      else throw (.outOfDate output model)
  | .error _ => throw (.outOfDate output model)

def generate (model : String) (output : Option String) (check : Bool) (s : Settings) :
    Run m String := do
  let text ← generatedText model s
  match output with
  | none => return text
  | some output =>
      if check then compare model output text
      else
        orFail (.notWritten output) (← FileAccess.write output text)
        return ""

def list (model : String) (s : Settings) : Run m String := do
  let u ← unitFrom model
  let plans ← orFail (.notGenerated model) (u.plan s)
  return String.join (plans.map fun p => p.summary ++ "\n")

end Task

end ActionWiring
