import ActionWiring.CommandLine.Invocation
import ActionWiring.CommandLine.Usage

namespace ActionWiring

def OsError.ofMachine : IO.Error → OsError
  | .noFileOrDirectory .. => .noSuchFile
  | .inappropriateType _ 20 _ => .notADirectory
  | .inappropriateType _ 21 _ => .isADirectory
  | .invalidArgument _ 36 _ => .nameTooLong
  | e => .other (toString e)

def onMachine {α : Type} (act : IO α) : IO (Except OsError α) := do
  match ← act.toBaseIO with
  | .ok a => return .ok a
  | .error e => return .error (.ofMachine e)

instance : FileAccess IO where
  size path := onMachine do
    let place ← IO.FS.realPath path
    return (← place.metadata).byteSize.toNat
  read path := do
    match ← onMachine (IO.FS.readBinFile path) with
    | .error e => return .error (.os e)
    | .ok data =>
        match String.fromUTF8? data with
        | some text => return .ok text
        | none => return .error .notText
  write path text := onMachine (IO.FS.writeFile path text)

end ActionWiring

open ActionWiring CommandLine in
def main (args : List String) : IO UInt32 := do
  let out ← IO.getStdout
  let err ← IO.getStderr
  match Invocation.parse args with
  | .error e =>
      out.putStr e.output
      err.putStr e.complaint
      return e.exitStatus
  | .ok invocation =>
      match ← (invocation.run : Task.Run IO String).run with
      | .ok text =>
          out.putStr text
          return 0
      | .error failure =>
          err.putStrLn (failure.message Diagnostic.report)
          return failure.exitStatus
