import ActionWiring.Hierarchy
import ActionWiring.Layout
import ActionWiring.Naming

namespace ActionWiring

structure Settings where
  containerMarker : String := Marker.container.spelling
  dispatcherMarker : String := Marker.dispatcher.spelling
  actionNameType : String := Marker.actionName.spelling
  generatedPrefix : String := Naming.generatedPrefix
  indentWidth : Nat := 2
  emitHeader : Bool := true
  deriving DecidableEq, Repr

inductive Choice where
  | containerMarker (name : String)
  | dispatcherMarker (name : String)
  | actionNameType (name : String)
  | generatedPrefix (head : String)
  | indentWidth (width : Nat)
  | header (emitted : Bool)
  deriving DecidableEq, Repr

namespace Settings

def choose (s : Settings) : Choice → Settings
  | .containerMarker name => { s with containerMarker := name }
  | .dispatcherMarker name => { s with dispatcherMarker := name }
  | .actionNameType name => { s with actionNameType := name }
  | .generatedPrefix head => if head.isEmpty then s else { s with generatedPrefix := head }
  | .indentWidth width => { s with indentWidth := min width widestIndent }
  | .header emitted => { s with emitHeader := emitted }

def ofChoices (choices : List Choice) : Settings := choices.foldl choose {}

def subclassName (s : Settings) (name : String) : String := s.generatedPrefix ++ name

def isGenerated (s : Settings) (name : String) : Bool :=
  Naming.beginsWith s.generatedPrefix name

theorem isGenerated_subclassName (s : Settings) (name : String) :
    s.isGenerated (s.subclassName name) = true :=
  Naming.beginsWith_append _ _

end Settings

def Settings.isDispatcherType (s : Settings) (type : DartType) : Bool :=
  type.name? == some s.dispatcherMarker

def Settings.isCandidate (s : Settings) (d : Declaration) : Bool :=
  d.isClassLike && !s.isGenerated d.shownName

namespace CompilationUnit

def qualifies (u : CompilationUnit) (s : Settings) (d : Declaration) :
    Except DeclarationError Bool :=
  if s.isCandidate d then do
    let supertypes ← u.transitiveSupertypes d
    return supertypes.any fun b => b.name == s.containerMarker
  else .ok false

def holdsContainer (u : CompilationUnit) (s : Settings) (type : DartType) :
    Except DeclarationError Bool :=
  match type.name? with
  | none => .ok false
  | some name => do
      match ← u.lookup name with
      | none => return false
      | some d => u.qualifies s d

end CompilationUnit

structure ActionEntry where
  name : String
  payload : String
  key : String
  deriving DecidableEq, Repr

structure NestedEntry where
  name : String
  typeName : String
  deriving DecidableEq, Repr

structure WiringSubclass where
  className : String
  baseName : String
  dispatcherType : String
  dispatchers : List ActionEntry
  nested : List NestedEntry
  deriving DecidableEq, Repr

structure NamesClass where
  className : String
  nameType : String
  entries : List ActionEntry
  deriving DecidableEq, Repr

structure ContainerPlan where
  container : String
  wiring : Option WiringSubclass
  names : NamesClass
  deriving DecidableEq, Repr

def DartType.payload (type : DartType) : Except Misalignment String := do
  let texts ← type.argumentTexts
  return if texts.isEmpty then Dart.dynamic else String.intercalate "," texts

def ActionEntry.ofField (container : String) (f : Field) : Except PlanError ActionEntry := do
  let payload ← liftTypes f.type.payload
  return { name := f.name, payload, key := Naming.actionKey container f.name }

def NestedEntry.ofField (f : Field) : Except PlanError NestedEntry := do
  let typeName ← liftTypes f.type.render
  return { name := f.name, typeName }

namespace CompilationUnit

def actionEntries (u : CompilationUnit) (s : Settings) (d : Declaration) :
    Except PlanError (List ActionEntry) :=
  u.gather d (fun f => .ok (s.isDispatcherType f.type))
    fun _ f => ActionEntry.ofField d.name f

def nestedEntries (u : CompilationUnit) (s : Settings) (d : Declaration) :
    Except PlanError (List NestedEntry) :=
  u.gather d (fun f => liftDeclarations (u.holdsContainer s f.type))
    fun _ f => NestedEntry.ofField f

def wiringSubclass (u : CompilationUnit) (s : Settings) (d : Declaration)
    (dispatchers : List ActionEntry) : Except PlanError (Option WiringSubclass) :=
  if d.constructors.length > 1 then do
    let nested ← u.nestedEntries s d
    return some
      { className := s.subclassName d.name
        baseName := d.name
        dispatcherType := s.dispatcherMarker
        dispatchers
        nested }
  else .ok none

def namesClass (s : Settings) (d : Declaration) (entries : List ActionEntry) : NamesClass where
  className := Naming.namesClass d.name
  nameType := s.actionNameType
  entries := entries

def planFor (u : CompilationUnit) (s : Settings) (d : Declaration) :
    Except PlanError ContainerPlan := do
  let entries ← u.actionEntries s d
  let wiring ← u.wiringSubclass s d entries
  return { container := d.name, wiring, names := namesClass s d entries }

def planAll (u : CompilationUnit) (s : Settings) :
    List Declaration → Except PlanError (List ContainerPlan) :=
  select (fun d => liftDeclarations (u.qualifies s d)) (u.planFor s)

def plan (u : CompilationUnit) (s : Settings) : Except PlanError (List ContainerPlan) := do
  let ds ← liftDeclarations u.ownDeclarations
  u.planAll s ds

end CompilationUnit

def ContainerPlan.summary (p : ContainerPlan) : String :=
  p.container ++ ": " ++ if p.wiring.isSome then "dispatchers+names" else "names"

end ActionWiring
