import ActionWiring.CommandLine.Reading

namespace ActionWiring.CommandLine

def programName : String := "actiongen"

def version : String := "0.1.0"

def Level.about : Level → String
  | .program => "Generates action dispatcher boilerplate for Redux-style action containers"
  | .command .generate => "Generate action classes for a compilation unit"
  | .command .list => "List the declarations that would be generated"

def Subcommand.about : Subcommand → String
  | .command c => (Level.command c).about
  | .help => "Print this message or the help of the given subcommand(s)"

def Level.usage : Level → String
  | .program => programName ++ " [OPTIONS] <COMMAND>"
  | .command c => programName ++ " " ++ c.word ++ " [OPTIONS] <MODEL>"

def Switch.form (s : Switch) : String :=
  (match s.letter? with
    | some letter => "-" ++ String.singleton letter ++ ", "
    | none => "    ") ++
    "--" ++ s.longName ++
    match s.valueName? with
    | some name => " <" ++ name ++ ">"
    | none => ""

def columns (rows : List (String × String)) : String :=
  let width := rows.foldl (fun n row => max n row.1.length) 0
  String.join (rows.map fun row =>
    "  " ++ row.1 ++ String.ofList (List.replicate (width - row.1.length + 2) ' ') ++ row.2 ++ "\n")

def Level.help (level : Level) : String :=
  let subject := match level with
    | .program => "Commands:\n" ++ columns (Subcommand.all.map fun s => (s.word, s.about))
    | .command _ => "Arguments:\n" ++ columns [("<MODEL>", "Declaration model of the unit (JSON)")]
  level.about ++ "\n\nUsage: " ++ level.usage ++ "\n\n" ++ subject ++ "\nOptions:\n" ++
    columns (level.switches.map fun s => (s.form, s.about))

namespace UsageError

def exitStatus : UsageError → UInt32
  | .helpRequested _ | .versionRequested => 0
  | _ => 2

def output : UsageError → String
  | .helpRequested topic => topic.help
  | .versionRequested => programName ++ " " ++ version ++ "\n"
  | _ => ""

def complaint : UsageError → String
  | .helpRequested _ | .versionRequested => ""
  | .nothingGiven => Level.program.help
  | .noCommand => "error: a command is required but none was given\n"
  | .missingArgument => "error: a required argument was not given\n"
  | .missingValue => "error: an option requires a value but none was given\n"
  | .emptyValue => "error: a value must not be empty\n"
  | .badValue => "error: a value is not valid for its option\n"
  | .unneededValue => "error: a value was given to a flag, which takes none\n"
  | .repeatedArgument => "error: an argument cannot be given more than once\n"
  | .unknownArgument => "error: unexpected argument\n"
  | .unknownCommand => "error: unrecognized command\n"

end UsageError

end ActionWiring.CommandLine
