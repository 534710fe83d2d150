import ActionWiring.CommandLine.Argument
import ActionWiring.Plan.Basic

namespace ActionWiring.CommandLine

inductive UsageError where
  | helpRequested (topic : Level)
  | versionRequested
  | nothingGiven
  | noCommand
  | missingArgument
  | missingValue
  | emptyValue
  | badValue
  | unneededValue
  | repeatedArgument
  | unknownArgument
  | unknownCommand
  deriving DecidableEq, Repr

structure Given where
  switches : List Switch := []
  model : Option String := none
  output : Option String := none
  choices : List Choice := []
  deriving DecidableEq, Repr

def nonEmpty (value : String) : Except UsageError String :=
  if value.isEmpty then .error .emptyValue else .ok value

def digits? (cs : List Char) : Option Nat :=
  if !cs.isEmpty && cs.all Char.isDigit then
    some (cs.foldl (fun n c => n * 10 + (c.toNat - '0'.toNat)) 0)
  else none

def integer? (value : String) : Option Int :=
  match value.toList with
  | '+' :: cs => (digits? cs).map Int.ofNat
  | '-' :: cs => (digits? cs).map fun n => -(n : Int)
  | cs => (digits? cs).map Int.ofNat

def indentOf (value : String) : Except UsageError Nat :=
  match integer? value with
  | some n => if 0 ≤ n ∧ n ≤ widestIndent then .ok n.toNat else .error .badValue
  | none => .error .badValue

namespace Given

def switch (g : Given) (s : Switch) : Except UsageError Given :=
  if s ∈ g.switches then .error .repeatedArgument else .ok { g with switches := s :: g.switches }

def choose (g : Given) (c : Choice) : Given := { g with choices := g.choices ++ [c] }

def putModel (g : Given) (value : String) : Except UsageError Given := do
  let model ← nonEmpty value
  return { g with model := some model }

def putValue (g : Given) (value : String) : ValueOption → Except UsageError Given
  | .output => do
      let output ← nonEmpty value
      return { g with output := some output }
  | .containerMarker => .ok (g.choose (.containerMarker value))
  | .dispatcherMarker => .ok (g.choose (.dispatcherMarker value))
  | .actionNameType => .ok (g.choose (.actionNameType value))
  | .generatedPrefix => do
      let head ← nonEmpty value
      return g.choose (.generatedPrefix head)
  | .indent => do
      let width ← indentOf value
      return g.choose (.indentWidth width)

def putOption (g : Given) (o : ValueOption) (value : String) : Except UsageError Given := do
  let g ← g.switch (.option o)
  g.putValue value o

def check (g : Given) : Bool := g.switches.contains (.flag .check)

def isEmpty (g : Given) : Bool := g == {}

end Given

inductive Pending where
  | model (value : String)
  | option (option : ValueOption) (value : Option String)
  deriving DecidableEq, Repr

structure Reading where
  given : Given := {}
  pending : Option Pending := none
  modelSeen : Bool := false
  trailing : Bool := false
  deriving DecidableEq, Repr

namespace Reading

def settle (r : Reading) : Except UsageError Reading :=
  match r.pending with
  | none => .ok r
  | some (.model value) => do
      let given ← r.given.putModel value
      return { r with given, pending := none }
  | some (.option _ none) => .error .missingValue
  | some (.option o (some value)) => do
      let given ← r.given.putOption o value
      return { r with given, pending := none }

def awaiting? (r : Reading) : Option ValueOption :=
  match r.pending with
  | some (.option o none) => some o
  | _ => none

def takeFlag (level : Level) (r : Reading) (f : Flag) : Except UsageError Reading := do
  let r ← r.settle
  match f with
  | .help => .error (.helpRequested level)
  | .version => .error .versionRequested
  | .check =>
      let given ← r.given.switch (.flag .check)
      return { r with given }
  | .noHeader =>
      let given ← r.given.switch (.flag .noHeader)
      return { r with given := given.choose (.header false) }

def takeOption (r : Reading) (o : ValueOption) (attached : Option String) :
    Except UsageError Reading := do
  let r ← r.settle
  match attached with
  | some value =>
      let given ← r.given.putOption o value
      return { r with given }
  | none => return { r with pending := some (.option o none) }

def takeLong (level : Level) (r : Reading) (body : List Char) : Except UsageError Reading :=
  let attached := match body.dropWhile (· != '=') with
    | [] => none
    | _ :: value => some (String.ofList value)
  match level.long? (String.ofList (body.takeWhile (· != '='))) with
  | none => .error .unknownArgument
  | some (.option o) => r.takeOption o attached
  | some (.flag f) => if attached.isSome then .error .unneededValue else r.takeFlag level f

def attachedTo : List Char → Option String
  | [] => none
  | '=' :: value => some (String.ofList value)
  | value => some (String.ofList value)

def takeLetters (level : Level) (r : Reading) : List Char → Except UsageError Reading
  | [] => .ok r
  | c :: cs =>
      match level.short? c with
      | none => .error .unknownArgument
      | some (.flag f) => do
          let r ← r.takeFlag level f
          r.takeLetters level cs
      | some (.option o) => r.takeOption o (attachedTo cs)

def takePositional (level : Level) (r : Reading) (word : String) : Except UsageError Reading :=
  match level with
  | .program =>
      if r.trailing && (Subcommand.ofWord? word).isSome then .error .unknownArgument
      else .error .unknownCommand
  | .command _ =>
      if r.modelSeen then .error .unknownArgument
      else do
        let r ← r.settle
        return { r with pending := some (.model word), modelSeen := true }

def take (level : Level) (r : Reading) (word : String) : Except UsageError Reading :=
  if r.trailing then r.takePositional level word
  else
    match word.toList with
    | ['-', '-'] => .ok { r with trailing := true }
    | '-' :: '-' :: body => r.takeLong level body
    | '-' :: c :: cs => r.takeLetters level (c :: cs)
    | _ =>
        match r.awaiting? with
        | some o => .ok { r with pending := some (.option o (some word)) }
        | none => r.takePositional level word

def subcommand? (level : Level) (r : Reading) (word : String) : Option Subcommand :=
  if level == .program && !r.trailing && r.awaiting?.isNone then Subcommand.ofWord? word else none

def takeAll (level : Level) (r : Reading) :
    List String → Except UsageError (Reading × Option (Subcommand × List String))
  | [] => .ok (r, none)
  | word :: words =>
      match r.subcommand? level word with
      | some sub => .ok (r, some (sub, words))
      | none => do
          let r ← r.take level word
          r.takeAll level words

end Reading

end ActionWiring.CommandLine
