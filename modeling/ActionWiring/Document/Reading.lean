import ActionWiring.CompilationUnit
import ActionWiring.Document.Record
import ActionWiring.Document.Types

namespace ActionWiring

namespace Document

open Json

def readTypeKind : Tree → Except DocumentError TypeKind
  | .string raw => do
      let word ← liftText raw.text
      liftData (TypeKind.ofWord word)
  | tree => .error (mismatch tree .word)

def readTagged (depth : Nat) : Option TypeKind → List (Tree × Tree) →
    Except DocumentError (Option TypeKind × List (String × Value))
  | kind, [] => .ok (kind, [])
  | kind, (key, tree) :: members => do
      let name ← liftText key.keyText
      if name = kindField then
        let kind ← fill kindField kind (readTypeKind tree)
        readTagged depth kind members
      else
        let v ← liftText (tree.value depth)
        let rest ← readTagged depth kind members
        return (rest.1, (name, v) :: rest.2)

def readType (depth : Nat) : Tree → Except DocumentError DartType
  | .array [] fault => do
      let _ ← liftText (enter depth)
      liftText (closing fault)
      .error (.data (.missingField kindField))
  | .array (first :: items) fault => do
      let inner ← liftText (enter depth)
      let kind ← readTypeKind first
      let vs ← liftText (Tree.values inner items)
      liftText (closing fault)
      liftData (typeOfElements kind vs)
  | .object members fault => do
      let inner ← liftText (enter depth)
      let (kind, values) ← readTagged inner none members
      liftText (closing fault)
      let kind ← required kindField kind
      liftData (typeOfMembers kind values)
  | tree => .error (mismatch tree (.ofShape .typeReference))

def declarationKindOf (word : String) : Except DataError DeclarationKind :=
  match DeclarationKind.ofWord? word with
  | some kind => .ok kind
  | none => .error (.unknownWord word (DeclarationKind.all.map DeclarationKind.word))

def readKind (depth : Nat) : Tree → Except DocumentError DeclarationKind
  | .string raw => do
      let word ← liftText raw.text
      liftData (declarationKindOf word)
  | .object [] fault => do
      let _ ← liftText (enter depth)
      liftText (closing fault)
      .error (.text .malformed)
  | .object ((key, tree) :: more) fault => do
      let _ ← liftText (enter depth)
      let word ← liftText key.keyText
      let kind ← liftData (declarationKindOf word)
      match tree with
      | .null =>
          if more.isEmpty then
            liftText (closing fault)
            return kind
          else .error (.text .malformed)
      | tree => .error (mismatch tree .null)
  | .absent => .error (.text .truncated)
  | _ => .error (.text .malformed)

def ignore {δ : Type} (draft : δ) (tree : Tree) : Except DocumentError δ := do
  liftText tree.skip
  return draft

def constructorRecord : Record (Option String) Constructor where
  shape := .constructor
  fields := ["name"]
  mandatory := 0
  blank := none
  put _ draft name tree :=
    if name = "name" then fill "name" draft (readText tree) else ignore draft tree
  finish draft := .ok ⟨draft.getD ""⟩

structure FieldDraft where
  name : Option String := none
  type : Option DartType := none

def fieldRecord : Record FieldDraft Field where
  shape := .field
  fields := ["name", "type"]
  mandatory := 2
  blank := {}
  put depth draft name tree :=
    if name = "name" then do
      let name ← fill "name" draft.name (readText tree)
      return { draft with name }
    else if name = "type" then do
      let type ← fill "type" draft.type (readType depth tree)
      return { draft with type }
    else ignore draft tree
  finish draft := do
    let name ← required "name" draft.name
    let type ← required "type" draft.type
    return { name, type }

structure DeclarationDraft where
  name : Option String := none
  displayName : Option (Option String) := none
  kind : Option DeclarationKind := none
  constructors : Option (List Constructor) := none
  fields : Option (List Field) := none
  supertypes : Option (List String) := none

def declarationRecord : Record DeclarationDraft Declaration where
  shape := .declaration
  fields := ["name", "display_name", "kind", "constructors", "fields", "supertypes"]
  mandatory := 1
  blank := {}
  put depth draft name tree :=
    if name = "name" then do
      let name ← fill "name" draft.name (readText tree)
      return { draft with name }
    else if name = "display_name" then do
      let displayName ← fill "display_name" draft.displayName (readText? tree)
      return { draft with displayName }
    else if name = "kind" then do
      let kind ← fill "kind" draft.kind (readKind depth tree)
      return { draft with kind }
    else if name = "constructors" then do
      let constructors ←
        fill "constructors" draft.constructors (readList constructorRecord.read depth tree)
      return { draft with constructors }
    else if name = "fields" then do
      let fields ← fill "fields" draft.fields (readList fieldRecord.read depth tree)
      return { draft with fields }
    else if name = "supertypes" then do
      let supertypes ←
        fill "supertypes" draft.supertypes (readList (fun _ => readText) depth tree)
      return { draft with supertypes }
    else ignore draft tree
  finish draft := do
    let name ← required "name" draft.name
    return {
      name
      displayName? := draft.displayName.join
      kind := draft.kind.getD .classDecl
      constructors := draft.constructors.getD []
      fields := draft.fields.getD []
      supertypes := draft.supertypes.getD [] }

structure UnitDraft where
  declarations : Option (List Declaration) := none
  library : Option (List Declaration) := none

def unitRecord : Record UnitDraft CompilationUnit where
  shape := .unitDocument
  fields := ["declarations", "library"]
  mandatory := 0
  blank := {}
  put depth draft name tree :=
    if name = "declarations" then do
      let declarations ←
        fill "declarations" draft.declarations (readList declarationRecord.read depth tree)
      return { draft with declarations }
    else if name = "library" then do
      let library ← fill "library" draft.library (readList declarationRecord.read depth tree)
      return { draft with library }
    else ignore draft tree
  finish draft :=
    .ok (CompilationUnit.ofLists (draft.declarations.getD []) (draft.library.getD []))

def readWhole {α : Type} (read : Nat → Tree → Except DocumentError α) (source : String) :
    Except DocumentError α := do
  let text := Text.ofString source
  let thing ← read 0 text.root
  if text.trailing then .error (.text .malformed) else return thing

def parseType : String → Except DocumentError DartType := readWhole readType

def parseDeclaration : String → Except DocumentError Declaration := readWhole declarationRecord.read

def parseUnit : String → Except DocumentError CompilationUnit := readWhole unitRecord.read

end Document

inductive LoadError where
  | document (cause : Document.DocumentError)
  | model (cause : DeclarationError)

namespace LoadError

def message : LoadError → String
  | .document cause => "invalid declaration model: " ++ cause.message
  | .model cause => cause.message

end LoadError

namespace CompilationUnit

def load (source : String) : Except LoadError CompilationUnit := do
  let u ← (Document.parseUnit source).mapError LoadError.document
  u.check.mapError LoadError.model
  return u

end CompilationUnit

end ActionWiring
