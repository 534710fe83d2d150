namespace ActionWiring

inductive OsError where
  | noSuchFile
  | notADirectory
  | isADirectory
  | nameTooLong
  | nulInPath
  | other (text : String)
  deriving DecidableEq, Repr

namespace OsError

def message : OsError → String
  | .noSuchFile => "No such file or directory (os error 2)"
  | .notADirectory => "Not a directory (os error 20)"
  | .isADirectory => "Is a directory (os error 21)"
  | .nameTooLong => "File name too long (os error 36)"
  | .nulInPath => "file name contained an unexpected NUL byte"
  | .other text => text

end OsError

inductive ReadError where
  | os (cause : OsError)
  | notText
  deriving DecidableEq, Repr

namespace ReadError

def message : ReadError → String
  | .os cause => cause.message
  | .notText => "stream did not contain valid UTF-8"

end ReadError

class FileAccess (m : Type → Type) where
  size : String → m (Except OsError Nat)
  read : String → m (Except ReadError String)
  write : String → String → m (Except OsError Unit)

instance {ε : Type} {m : Type → Type} [Monad m] [FileAccess m] : FileAccess (ExceptT ε m) where
  size path := ExceptT.lift (FileAccess.size path)
  read path := ExceptT.lift (FileAccess.read path)
  write path text := ExceptT.lift (FileAccess.write path text)

inductive Content where
  | bytes (data : ByteArray)
  | zeros (count : Nat)

namespace Content

def ofText (text : String) : Content := .bytes text.toUTF8

def size : Content → Nat
  | .bytes data => data.size
  | .zeros count => count

def text? : Content → Option String
  | .bytes data => String.fromUTF8? data
  | .zeros count => some ("".pushn '\x00' count)

end Content

inductive Node where
  | file (content : Content)
  | directory

abbrev Place := List String

namespace Place

def upward : String := ".."

def isTopOrAbove (place : Place) : Bool := place.all (· == upward)

def parent (place : Place) : Place :=
  if place.isTopOrAbove then place ++ [upward] else place.dropLast

end Place

structure Workspace where
  entries : List (Place × Node) := []

namespace Workspace

def node? (w : Workspace) (place : Place) : Option Node :=
  match w.entries.lookup place with
  | some node => some node
  | none =>
      if place.isTopOrAbove || w.entries.any fun e => place.isPrefixOf e.1 then some .directory
      else none

def put (w : Workspace) (place : Place) (node : Node) : Workspace where
  entries := (place, node) :: w.entries.filter fun e => e.1 != place

def splitSlashes : List Char → List (List Char)
  | [] => [[]]
  | c :: cs =>
      match splitSlashes cs with
      | [] => [[c]]
      | word :: words => if c = '/' then [] :: word :: words else (c :: word) :: words

def components (path : String) : List String := (splitSlashes path.toList).map String.ofList

def longestName : Nat := 255

def longestPath : Nat := 4095

def components? (path : String) : Except OsError (List String) :=
  if path.toList.contains '\x00' then .error .nulInPath
  else if path = "" then .error .noSuchFile
  else if longestPath < path.utf8ByteSize then .error .nameTooLong
  else .ok (components path)

def follow (w : Workspace) (place : Place) : List String → Except OsError Place
  | [] => .ok place
  | c :: cs =>
      match w.node? place with
      | none => .error .noSuchFile
      | some (.file _) => .error .notADirectory
      | some .directory =>
          if c = "" || c = "." then w.follow place cs
          else if c = ".." then w.follow place.parent cs
          else if longestName < c.utf8ByteSize then .error .nameTooLong
          else w.follow (place ++ [c]) cs

def locate (w : Workspace) (path : String) : Except OsError Place := do
  let cs ← components? path
  w.follow [] cs

def find (w : Workspace) (path : String) : Except OsError Node := do
  let place ← w.locate path
  match w.node? place with
  | some node => return node
  | none => .error .noSuchFile

def size (w : Workspace) (path : String) : Except OsError Nat := do
  match ← w.find path with
  | .file content => return content.size
  | .directory => return 0

def read (w : Workspace) (path : String) : Except ReadError String :=
  match w.find path with
  | .error cause => .error (.os cause)
  | .ok .directory => .error (.os .isADirectory)
  | .ok (.file content) =>
      match content.text? with
      | some text => .ok text
      | none => .error .notText

def filePlace (w : Workspace) (path : String) : Except OsError Place := do
  let cs ← components? path
  match cs.reverse with
  | "" :: behind =>
      let before := (behind.dropWhile (· = "")).drop 1
      let _ ← w.follow [] (before.reverse ++ ["."])
      .error .isADirectory
  | _ => w.follow [] cs

def write (w : Workspace) (path text : String) : Except OsError Workspace := do
  let place ← w.filePlace path
  match w.node? place with
  | some .directory => .error .isADirectory
  | _ => return w.put place (.file (.ofText text))

instance : FileAccess (StateM Workspace) where
  size path := do return (← get).size path
  read path := do return (← get).read path
  write path text := do
    match (← get).write path text with
    | .ok w => set w; return .ok ()
    | .error cause => return .error cause

end Workspace

end ActionWiring
