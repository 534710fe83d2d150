import ActionWiring.Json.Value
import ActionWiring.Text.Quoted

namespace ActionWiring.Document

open Json

inductive Found where
  | null
  | bool (value : Bool)
  | number (value : Number)
  | string (text : String)
  | sequence
  | map

namespace Found

def ofValue : Value → Found
  | .null => .null
  | .bool b => .bool b
  | .number n => .number n
  | .string s => .string s
  | .array _ => .sequence
  | .object _ => .map

def message : Found → String
  | .null => "null"
  | .bool b => "boolean `" ++ (if b then "true" else "false") ++ "`"
  | .number (.integer n) => "integer `" ++ toString n ++ "`"
  | .number (.float f) => "floating point `" ++ floatText f ++ "`"
  | .string s => "string " ++ Text.quoted s
  | .sequence => "sequence"
  | .map => "map"

end Found

inductive Shape where
  | unitDocument
  | declaration
  | constructor
  | field
  | typeParameter
  | typeReference
  | namedType
  | parameterizedType
  | functionType
  deriving DecidableEq, Repr

namespace Shape

def message : Shape → String
  | .unitDocument => "struct UnitDocument"
  | .declaration => "struct Declaration"
  | .constructor => "struct Constructor"
  | .field => "struct Field"
  | .typeParameter => "struct TypeParam"
  | .typeReference => "internally tagged enum TypeRef"
  | .namedType => "struct variant TypeRef::Named"
  | .parameterizedType => "struct variant TypeRef::Parameterized"
  | .functionType => "struct variant TypeRef::Function"

def size : Shape → Nat
  | .unitDocument => 2
  | .declaration => 6
  | .constructor => 1
  | .field => 2
  | .typeParameter => 2
  | .typeReference => 0
  | .namedType => 1
  | .parameterizedType => 3
  | .functionType => 3

end Shape

inductive Expected where
  | string
  | sequence
  | null
  | word
  | ofShape (shape : Shape)
  deriving DecidableEq, Repr

def Expected.message : Expected → String
  | .string => "a string"
  | .sequence => "a sequence"
  | .null => "unit"
  | .word => "variant identifier"
  | .ofShape shape => shape.message

inductive DataError where
  | missingField (name : String)
  | duplicateField (name : String)
  | unexpected (found : Found) (expected : Expected)
  | unknownWord (word : String) (known : List String)
  | noSuchIndex (index : Nat) (count : Nat)
  | tooShort (length : Nat) (shape : Shape)
  | tooLong (length : Nat) (expected : Nat)

namespace DataError

def elements (n : Nat) : String :=
  if n = 1 then "1 element" else toString n ++ " elements"

def message : DataError → String
  | .missingField name => "missing field `" ++ name ++ "`"
  | .duplicateField name => "duplicate field `" ++ name ++ "`"
  | .unexpected found expected =>
      "invalid type: " ++ found.message ++ ", expected " ++ expected.message
  | .unknownWord word known =>
      "unknown variant `" ++ word ++ "`, expected one of " ++
        String.intercalate ", " (known.map fun k => "`" ++ k ++ "`")
  | .noSuchIndex index count =>
      "invalid value: integer `" ++ toString index ++ "`, expected variant index 0 <= i < " ++
        toString count
  | .tooShort length shape =>
      "invalid length " ++ toString length ++ ", expected " ++ shape.message ++ " with " ++
        elements shape.size
  | .tooLong length expected =>
      "invalid length " ++ toString length ++ ", expected " ++ elements expected ++ " in sequence"

end DataError

inductive DocumentError where
  | text (fault : Fault)
  | data (cause : DataError)

namespace DocumentError

def message : DocumentError → String
  | .text .malformed => "<Syntax>"
  | .text .truncated => "<Eof>"
  | .data cause => cause.message

end DocumentError

def liftText {α : Type} : Except Fault α → Except DocumentError α :=
  Except.mapError DocumentError.text

def liftData {α : Type} : Except DataError α → Except DocumentError α :=
  Except.mapError DocumentError.data

end ActionWiring.Document
