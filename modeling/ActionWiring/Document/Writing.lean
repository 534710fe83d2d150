import ActionWiring.CompilationUnit
import ActionWiring.Document.Types
import ActionWiring.Json.Value

namespace ActionWiring

namespace Json

def hexChar (n : Nat) : Char :=
  if n < 10 then Char.ofNat ('0'.toNat + n) else Char.ofNat ('a'.toNat + (n - 10))

def escapedChar (c : Char) : List Char :=
  match c with
  | '"' => ['\\', '"']
  | '\\' => ['\\', '\\']
  | '\x08' => ['\\', 'b']
  | '\x0c' => ['\\', 'f']
  | '\n' => ['\\', 'n']
  | '\r' => ['\\', 'r']
  | '\t' => ['\\', 't']
  | c =>
      if c.toNat < 0x20 then ['\\', 'u', '0', '0', hexChar (c.toNat / 16), hexChar (c.toNat % 16)]
      else [c]

def stringChars (s : String) : List Char :=
  '"' :: (s.toList.flatMap escapedChar ++ ['"'])

def Number.chars : Number → List Char
  | .integer n => (toString n).toList
  | .float f => (floatText f).toList

namespace Value

mutual

def chars : Value → List Char
  | .null => ['n', 'u', 'l', 'l']
  | .bool true => ['t', 'r', 'u', 'e']
  | .bool false => ['f', 'a', 'l', 's', 'e']
  | .number n => n.chars
  | .string s => stringChars s
  | .array [] => ['[', ']']
  | .array (v :: vs) => '[' :: (chars v ++ itemChars vs)
  | .object [] => ['\x7b', '\x7d']
  | .object ((name, v) :: ms) => '\x7b' :: (stringChars name ++ ':' :: (chars v ++ memberChars ms))

def itemChars : List Value → List Char
  | [] => [']']
  | v :: vs => ',' :: (chars v ++ itemChars vs)

def memberChars : List (String × Value) → List Char
  | [] => ['\x7d']
  | (name, v) :: ms => ',' :: (stringChars name ++ ':' :: (chars v ++ memberChars ms))

end

def text (v : Value) : String := String.ofList v.chars

end Value

end Json

namespace Document

open Json

mutual

def ofType : DartType → Value
  | .named name => .object [(kindField, .string TypeKind.named.word), ("name", .string name)]
  | .generic form name params args =>
      .object
        [(kindField, .string (TypeKind.generic form).word),
          ("name", .string name),
          ("params", .array (ofParams params)),
          ("args", .array (ofTypes args))]
  | .void => .object [(kindField, .string TypeKind.void.word)]
  | .dynamic => .object [(kindField, .string TypeKind.dynamic.word)]
  | .unresolved => .object [(kindField, .string TypeKind.unresolved.word)]

def ofTypes : List DartType → List Value
  | [] => []
  | type :: types => ofType type :: ofTypes types

def ofParam : TypeParameter → Value
  | .free name => .object [("name", .string name)]
  | .bounded name bound => .object [("name", .string name), ("bound", ofType bound)]

def ofParams : List TypeParameter → List Value
  | [] => []
  | param :: params => ofParam param :: ofParams params

end

def ofConstructor (c : Constructor) : Value := .object [("name", .string c.name)]

def ofField (f : Field) : Value := .object [("name", .string f.name), ("type", ofType f.type)]

def displayNameMember : Option String → List (String × Value)
  | none => []
  | some name => [("display_name", .string name)]

def ofDeclaration (d : Declaration) : Value :=
  .object
    (("name", .string d.name) :: displayNameMember d.displayName? ++
      [("kind", .string d.kind.word),
        ("constructors", .array (d.constructors.map ofConstructor)),
        ("fields", .array (d.fields.map ofField)),
        ("supertypes", .array (d.supertypes.map .string))])

def ofUnit (u : CompilationUnit) : Value :=
  .object
    [("declarations", .array (u.own.map ofDeclaration)),
      ("library", .array (u.library.map ofDeclaration))]

end Document

end ActionWiring
