import ActionWiring.CommandLine.Reading
import ActionWiring.Files.Tasks

namespace ActionWiring.CommandLine

inductive Request where
  | generate (model : String) (output : Option String) (check : Bool)
  | list (model : String)
  deriving DecidableEq, Repr

structure Invocation where
  request : Request
  settings : Settings
  deriving DecidableEq, Repr

def Command.request (command : Command) (g : Given) : Except UsageError Request :=
  match command, g.model with
  | _, none => .error .missingArgument
  | .generate, some model =>
      if g.check && g.output.isNone then .error .missingArgument
      else .ok (.generate model g.output g.check)
  | .list, some model => .ok (.list model)

def helpTopic : List String → Except UsageError Level
  | [] => .ok .program
  | [word] =>
      match Subcommand.ofWord? word with
      | some (.command c) => .ok (.command c)
      | some .help => .ok .program
      | none => .error .unknownCommand
  | _ => .error .unknownCommand

namespace Invocation

def parse (words : List String) : Except UsageError Invocation := do
  let (outer, sub) ← Reading.takeAll .program {} words
  match sub with
  | none =>
      let outer ← outer.settle
      .error (if outer.given.isEmpty then .nothingGiven else .noCommand)
  | some (.help, topic) =>
      let level ← helpTopic topic
      .error (.helpRequested level)
  | some (.command command, words) =>
      let (inner, _) ← Reading.takeAll (.command command) {} words
      let inner ← inner.settle
      let request ← command.request inner.given
      let outer ← outer.settle
      return { request, settings := .ofChoices (outer.given.choices ++ inner.given.choices) }

def run {m : Type → Type} [Monad m] [FileAccess m] (i : Invocation) : Task.Run m String :=
  match i.request with
  | .generate model output check => Task.generate model output check i.settings
  | .list model => Task.list model i.settings

end Invocation

end ActionWiring.CommandLine
