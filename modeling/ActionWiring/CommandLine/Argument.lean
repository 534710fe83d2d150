
namespace ActionWiring.CommandLine

inductive Command where
  | generate
  | list
  deriving DecidableEq, Repr

def Command.word : Command → String
  | .generate => "generate"
  | .list => "list"

inductive Subcommand where
  | command (command : Command)
  | help
  deriving DecidableEq, Repr

namespace Subcommand

def word : Subcommand → String
  | .command c => c.word
  | .help => "help"

def all : List Subcommand := [.command .generate, .command .list, .help]

def ofWord? (word : String) : Option Subcommand := all.find? fun s => s.word == word

end Subcommand

inductive Level where
  | program
  | command (command : Command)
  deriving DecidableEq, Repr

inductive ValueOption where
  | output
  | containerMarker
  | dispatcherMarker
  | actionNameType
  | generatedPrefix
  | indent
  deriving DecidableEq, Repr

inductive Flag where
  | check
  | noHeader
  | help
  | version
  deriving DecidableEq, Repr

inductive Switch where
  | option (option : ValueOption)
  | flag (flag : Flag)
  deriving DecidableEq, Repr

namespace Switch

def longName : Switch → String
  | .option .output => "output"
  | .option .containerMarker => "container-marker"
  | .option .dispatcherMarker => "dispatcher-marker"
  | .option .actionNameType => "action-name-type"
  | .option .generatedPrefix => "generated-prefix"
  | .option .indent => "indent"
  | .flag .check => "check"
  | .flag .noHeader => "no-header"
  | .flag .help => "help"
  | .flag .version => "version"

def letter? : Switch → Option Char
  | .option .output => some 'o'
  | .flag .help => some 'h'
  | .flag .version => some 'V'
  | _ => none

def valueName? : Switch → Option String
  | .option .output => some "FILE"
  | .option .generatedPrefix => some "PREFIX"
  | .option .indent => some "WIDTH"
  | .option _ => some "NAME"
  | .flag _ => none

def about : Switch → String
  | .option .output => "Output file (default: stdout)"
  | .option .containerMarker => "Supertype marking action containers"
  | .option .dispatcherMarker => "Field wrapper type marking dispatchable actions"
  | .option .actionNameType => "Identifier type used by the names class"
  | .option .generatedPrefix => "Prefix of generated class names"
  | .option .indent => "Spaces per indentation level (0-16)"
  | .flag .check => "Fail if the output file is missing or out of date instead of writing it"
  | .flag .noHeader => "Do not emit the lint-suppression header"
  | .flag .help => "Print help"
  | .flag .version => "Print version"

def all : List Switch :=
  [.option .output, .flag .check, .option .containerMarker, .option .dispatcherMarker,
    .option .actionNameType, .option .generatedPrefix, .option .indent, .flag .noHeader,
    .flag .help, .flag .version]

end Switch

namespace Level

def offers (level : Level) : Switch → Bool
  | .option .output | .flag .check => level == .command .generate
  | .flag .version => level == .program
  | _ => true

def switches (level : Level) : List Switch := Switch.all.filter level.offers

def long? (level : Level) (name : String) : Option Switch :=
  level.switches.find? fun s => s.longName == name

def short? (level : Level) (letter : Char) : Option Switch :=
  level.switches.find? fun s => s.letter? == some letter

end Level

end ActionWiring.CommandLine
