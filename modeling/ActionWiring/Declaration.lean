import ActionWiring.DartType

namespace ActionWiring

inductive DeclarationKind where
  | classDecl
  | mixinDecl
  | enumDecl
  | typedefDecl
  deriving DecidableEq, Repr

namespace DeclarationKind

def word : DeclarationKind → String
  | .classDecl => "class"
  | .mixinDecl => "mixin"
  | .enumDecl => "enum"
  | .typedefDecl => "typedef"

def all : List DeclarationKind := [.classDecl, .mixinDecl, .enumDecl, .typedefDecl]

def ofWord? (word : String) : Option DeclarationKind :=
  all.find? fun kind => kind.word == word

theorem ofWord?_word (kind : DeclarationKind) : ofWord? kind.word = some kind := by
  cases kind <;> decide

def isClassLike : DeclarationKind → Bool
  | .classDecl | .mixinDecl => true
  | .enumDecl | .typedefDecl => false

end DeclarationKind

structure Constructor where
  name : String := ""
  deriving DecidableEq, Repr

structure Field where
  name : String
  type : DartType

structure Declaration where
  name : String
  displayName? : Option String := none
  kind : DeclarationKind := .classDecl
  constructors : List Constructor := []
  fields : List Field := []
  supertypes : List String := []

namespace Declaration

def shownName (d : Declaration) : String := d.displayName?.getD d.name

def isClassLike (d : Declaration) : Bool := d.kind.isClassLike

end Declaration

inductive DeclarationError where
  | unknownSupertype (declaration supertype : String)
  | ownSupertype (declaration : String)
  | declaredTwice (name : String)
  deriving DecidableEq, Repr

namespace DeclarationError

def message : DeclarationError → String
  | .unknownSupertype declaration supertype =>
      "declaration `" ++ declaration ++ "` names unknown supertype `" ++ supertype ++ "`"
  | .ownSupertype declaration => "declaration `" ++ declaration ++ "` is its own supertype"
  | .declaredTwice name => "declaration `" ++ name ++ "` is declared more than once"

end DeclarationError

namespace Misalignment

def message (m : Misalignment) : String :=
  "type `" ++ m.typeName ++ "` declares " ++ toString m.params ++
    " type parameters but is given " ++ toString m.args ++ " type arguments"

end Misalignment

inductive PlanError where
  | model (cause : DeclarationError)
  | misaligned (cause : Misalignment)
  deriving DecidableEq, Repr

namespace PlanError

def message : PlanError → String
  | .model cause => cause.message
  | .misaligned cause => cause.message

end PlanError

def liftDeclarations {α : Type} : Except DeclarationError α → Except PlanError α :=
  Except.mapError PlanError.model

def liftTypes {α : Type} : Except Misalignment α → Except PlanError α :=
  Except.mapError PlanError.misaligned

end ActionWiring
