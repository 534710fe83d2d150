import ActionWiring.Plan.Basic

namespace ActionWiring

namespace Dart

def needsEscape (c : Char) : Bool :=
  c == '\\' || c == '\x27' || c == '$'

def escapeChar (c : Char) : List Char :=
  if needsEscape c then ['\\', c] else [c]

def literalChars (value : List Char) : List Char :=
  '\x27' :: (value.flatMap escapeChar ++ ['\x27'])

def literal (value : String) : String :=
  String.ofList (literalChars value.toList)

theorem toList_literal (value : String) : (literal value).toList = literalChars value.toList :=
  String.toList_ofList

end Dart

namespace ActionEntry

def creation (type : String) (e : ActionEntry) : String :=
  "new " ++ type ++ "<" ++ e.payload ++ ">(" ++ Dart.literal e.key ++ ");"

def dispatcherLine (type : String) (e : ActionEntry) : String :=
  "final " ++ e.name ++ " = " ++ e.creation type

def nameLine (type : String) (e : ActionEntry) : String :=
  "static final " ++ e.name ++ " = " ++ e.creation type

end ActionEntry

def NestedEntry.line (e : NestedEntry) : String :=
  "final " ++ e.name ++ " = new " ++ e.typeName ++ "();"

namespace WiringSubclass

def forwarded (c : WiringSubclass) : List String :=
  c.dispatchers.map ActionEntry.name ++ c.nested.map NestedEntry.name

def forwardLine (name : String) : String :=
  name ++ "." ++ Naming.setDispatcherMethod ++ "(" ++ Naming.dispatcherParameter ++ ");"

def setDispatcherHeader : String :=
  Dart.void ++ " " ++ Naming.setDispatcherMethod ++ "(" ++ Marker.runtimeDispatcher.spelling ++
    " " ++ Naming.dispatcherParameter ++ ")"

def fieldSteps (c : WiringSubclass) : List Step :=
  let lines := c.dispatchers.map (ActionEntry.dispatcherLine c.dispatcherType) ++
    c.nested.map NestedEntry.line
  if lines.isEmpty then [] else .blank :: lines.map Step.line

def script (c : WiringSubclass) : List Step :=
  [.block ("class " ++ c.className ++ " extends " ++ c.baseName)
    ([.line ("factory " ++ c.className ++ "() => new " ++ c.className ++ "._();"),
      .line (c.className ++ "._() : super._();")] ++
      c.fieldSteps ++
      [.blank,
        .line Dart.overrideAnnotation,
        .block setDispatcherHeader (c.forwarded.map fun name => .line (forwardLine name))])]

theorem isEmpty_run_script (c : WiringSubclass) (w : Writer) (front : List Step) :
    (w.run (front ++ c.script)).isEmpty = false := by
  simp [Writer.isEmpty, Writer.run, Step.emitAll_append, script, Step.emitAll, Step.emit]

end WiringSubclass

namespace NamesClass

def script (c : NamesClass) : List Step :=
  [.block ("class " ++ c.className) (c.entries.map fun e => .line (e.nameLine c.nameType))]

end NamesClass

namespace ContainerPlan

def script (atStart : Bool) (p : ContainerPlan) : List Step :=
  let gap : List Step := if atStart then [] else [.blank]
  match p.wiring with
  | some c => gap ++ c.script ++ [.blank] ++ p.names.script
  | none => gap ++ p.names.script

def write (w : Writer) (p : ContainerPlan) : Writer :=
  match p.wiring with
  | some c => (w.runApart c.script).runApart p.names.script
  | none => w.runApart p.names.script

-- The names class always has a blank line before it where there is a subclass, although the writer
-- is asked again whether it is empty.
theorem write_eq_run (w : Writer) (p : ContainerPlan) : p.write w = w.run (p.script w.isEmpty) := by
  unfold write script
  cases p.wiring with
  | none => exact w.runApart_eq p.names.script
  | some c =>
      dsimp only
      rw [Writer.runApart_eq, Writer.runApart_eq, c.isEmpty_run_script, ← Writer.run_append]
      simp only [Bool.false_eq_true, if_false, List.append_assoc]

end ContainerPlan

namespace Settings

def headerScript (s : Settings) : List Step :=
  if s.emitHeader then Dart.lintSuppressions.map Step.line else []

def write (s : Settings) (plans : List ContainerPlan) : Writer :=
  plans.foldl ContainerPlan.write (Writer.run {} s.headerScript)

def renderPlans (s : Settings) (plans : List ContainerPlan) : String :=
  if plans.isEmpty then "" else (s.write plans).text s.indentWidth

end Settings

def CompilationUnit.generate (u : CompilationUnit) (s : Settings) :
    Except PlanError String := do
  let plans ← u.plan s
  return s.renderPlans plans

end ActionWiring
