import ActionWiring.DartType
import ActionWiring.Document.Error

namespace ActionWiring.Document

open Json

inductive TypeKind where
  | named
  | generic (form : GenericForm)
  | void
  | dynamic
  | unresolved
  deriving DecidableEq, Repr

namespace TypeKind

def word : TypeKind → String
  | .named => "named"
  | .generic .parameterized => "parameterized"
  | .generic .function => "function"
  | .void => "void"
  | .dynamic => "dynamic"
  | .unresolved => "unresolved"

def all : List TypeKind :=
  [.named, .generic .parameterized, .generic .function, .void, .dynamic, .unresolved]

def ofWord (word : String) : Except DataError TypeKind :=
  match all.find? fun kind => kind.word == word with
  | some kind => .ok kind
  | none => .error (.unknownWord word (all.map TypeKind.word))

theorem ofWord_word : ∀ kind : TypeKind, ofWord kind.word = .ok kind
  | .named | .generic .parameterized | .generic .function | .void | .dynamic | .unresolved => rfl

def ofValue : Value → Except DataError TypeKind
  | .string word => ofWord word
  | .number (.integer (.ofNat i)) =>
      match all[i]? with
      | some kind => .ok kind
      | none => .error (.noSuchIndex i all.length)
  | v => .error (.unexpected (.ofValue v) .word)

def assemble {α : Type} (kind : TypeKind) (named : α) (generic : GenericForm → α)
    (bare : DartType → α) : α :=
  match kind with
  | .named => named
  | .generic form => generic form
  | .void => bare .void
  | .dynamic => bare .dynamic
  | .unresolved => bare .unresolved

end TypeKind

def kindField : String := "kind"

def textOf : Value → Except DataError String
  | .string s => .ok s
  | v => .error (.unexpected (.ofValue v) .string)

def fillOnce {α : Type} (name : String) (slot : Option α) (read : Except DataError α) :
    Except DataError (Option α) :=
  match slot with
  | some _ => .error (.duplicateField name)
  | none => read.map some

def taggedKind : Option TypeKind → List (String × Value) → Except DataError TypeKind
  | none, [] => .error (.missingField kindField)
  | some kind, [] => .ok kind
  | found, (name, v) :: members =>
      if name = kindField then do
        let kind ← fillOnce kindField found (TypeKind.ofValue v)
        taggedKind kind members
      else taggedKind found members

def namedMembers : Option String → List (String × Value) → Except DataError DartType
  | none, [] => .error (.missingField "name")
  | some name, [] => .ok (.named name)
  | found, (field, v) :: members =>
      if field = "name" then do
        let name ← fillOnce "name" found (textOf v)
        namedMembers name members
      else namedMembers found members

def namedElements : List Value → Except DataError DartType
  | [] => .error (.tooShort 0 .namedType)
  | v :: more => do
      let name ← textOf v
      if more.isEmpty then return .named name else .error (.tooLong (more.length + 1) 1)

def bareElements (type : DartType) (vs : List Value) : Except DataError DartType :=
  if vs.isEmpty then .ok type else .error (.tooLong vs.length 0)

def genericShape : GenericForm → Shape
  | .parameterized => .parameterizedType
  | .function => .functionType

structure GenericDraft where
  name : Option String := none
  params : Option (List TypeParameter) := none
  args : Option (List DartType) := none

def GenericDraft.finish (form : GenericForm) (d : GenericDraft) : Except DataError DartType :=
  match d.name with
  | none => .error (.missingField "name")
  | some name => .ok (.generic form name (d.params.getD []) (d.args.getD []))

structure ParamDraft where
  name : Option String := none
  bound : Option (Option DartType) := none

def paramWith (name : String) : Option DartType → TypeParameter
  | none => .free name
  | some bound => .bounded name bound

def ParamDraft.finish (d : ParamDraft) : Except DataError TypeParameter :=
  match d.name with
  | none => .error (.missingField "name")
  | some name => .ok (paramWith name d.bound.join)

def present : Option DartType → Except DataError DartType
  | some type => .ok type
  | none => .error (.unexpected .null (.ofShape .typeReference))

mutual

def typeOf? : Value → Except DataError (Option DartType)
  | .null => .ok none
  | .array [] => .error (.missingField kindField)
  | .array (v :: vs) => do
      let kind ← TypeKind.ofValue v
      let type ← kind.assemble (namedElements vs) (fun form => genericElements form vs)
        fun type => bareElements type vs
      return some type
  | .object members => do
      let kind ← taggedKind none members
      let type ← kind.assemble (namedMembers none members)
        (fun form => genericMembers form {} members) .ok
      return some type
  | v => .error (.unexpected (.ofValue v) (.ofShape .typeReference))

def genericElements (form : GenericForm) : List Value → Except DataError DartType
  | [] => .error (.tooShort 0 (genericShape form))
  | [n] => do
      let name ← textOf n
      return .generic form name [] []
  | [n, p] => do
      let name ← textOf n
      let params ← paramsOf p
      return .generic form name params []
  | n :: p :: a :: more => do
      let name ← textOf n
      let params ← paramsOf p
      let args ← argsOf a
      if more.isEmpty then return .generic form name params args
      else .error (.tooLong (more.length + 3) 3)

def genericMembers (form : GenericForm) (d : GenericDraft) :
    List (String × Value) → Except DataError DartType
  | [] => d.finish form
  | (field, v) :: members =>
      if field = "name" then do
        let name ← fillOnce "name" d.name (textOf v)
        genericMembers form { d with name } members
      else if field = "params" then do
        let params ← fillOnce "params" d.params (paramsOf v)
        genericMembers form { d with params } members
      else if field = "args" then do
        let args ← fillOnce "args" d.args (argsOf v)
        genericMembers form { d with args } members
      else genericMembers form d members

def argsOf : Value → Except DataError (List DartType)
  | .array vs => typesOf vs
  | v => .error (.unexpected (.ofValue v) .sequence)

def typesOf : List Value → Except DataError (List DartType)
  | [] => .ok []
  | v :: vs => do
      let type ← typeOf? v
      let type ← present type
      let types ← typesOf vs
      return type :: types

def paramsOf : Value → Except DataError (List TypeParameter)
  | .array vs => paramListOf vs
  | v => .error (.unexpected (.ofValue v) .sequence)

def paramListOf : List Value → Except DataError (List TypeParameter)
  | [] => .ok []
  | v :: vs => do
      let param ← paramOf v
      let params ← paramListOf vs
      return param :: params

def paramOf : Value → Except DataError TypeParameter
  | .array [] => .error (.tooShort 0 .typeParameter)
  | .array [n] => do
      let name ← textOf n
      return .free name
  | .array (n :: b :: more) => do
      let name ← textOf n
      let bound ← typeOf? b
      if more.isEmpty then return paramWith name bound
      else .error (.tooLong (more.length + 2) 2)
  | .object members => paramMembers {} members
  | v => .error (.unexpected (.ofValue v) (.ofShape .typeParameter))

def paramMembers (d : ParamDraft) : List (String × Value) → Except DataError TypeParameter
  | [] => d.finish
  | (field, v) :: members =>
      if field = "name" then do
        let name ← fillOnce "name" d.name (textOf v)
        paramMembers { d with name } members
      else if field = "bound" then do
        let bound ← fillOnce "bound" d.bound (typeOf? v)
        paramMembers { d with bound } members
      else paramMembers d members

end

def typeOfElements (kind : TypeKind) (vs : List Value) : Except DataError DartType :=
  kind.assemble (namedElements vs) (fun form => genericElements form vs)
    fun type => bareElements type vs

def typeOfMembers (kind : TypeKind) (members : List (String × Value)) : Except DataError DartType :=
  kind.assemble (namedMembers none members) (fun form => genericMembers form {} members) .ok

end ActionWiring.Document
