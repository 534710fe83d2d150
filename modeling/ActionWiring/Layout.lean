namespace ActionWiring

inductive Line where
  | blank
  | text (depth : Nat) (body : String)
  deriving DecidableEq, Repr

def Line.render (unit : Nat) : Line → String
  | .blank => "\n"
  | .text depth body => String.ofList (List.replicate (unit * depth) ' ') ++ body ++ "\n"

inductive Step where
  | line (body : String)
  | blank
  | indent
  | dedent
  | block (header : String) (body : List Step)
  deriving Repr

namespace Step

mutual

def emit (level : Nat) : Step → List Line × Nat
  | .line body => ([.text level body], level)
  | .blank => ([.blank], level)
  | .indent => ([], level + 1)
  | .dedent => ([], level - 1)
  | .block header body =>
      let inner := emitAll (level + 1) body
      (.text level (header ++ " \x7b") :: (inner.1 ++ [.text (inner.2 - 1) "\x7d"]), inner.2 - 1)

def emitAll (level : Nat) : List Step → List Line × Nat
  | [] => ([], level)
  | step :: steps =>
      let first := emit level step
      let rest := emitAll first.2 steps
      (first.1 ++ rest.1, rest.2)

end

theorem emitAll_append (level : Nat) (left right : List Step) :
    emitAll level (left ++ right) =
      ((emitAll level left).1 ++ (emitAll (emitAll level left).2 right).1,
        (emitAll (emitAll level left).2 right).2) := by
  induction left generalizing level with
  | nil => simp [emitAll]
  | cons step steps ih => simp [emitAll, ih]

end Step

def widestIndent : Nat := 16

structure Writer where
  level : Nat := 0
  lines : List Line := []
  deriving Repr

namespace Writer

def isEmpty (w : Writer) : Bool := w.lines.isEmpty

def run (w : Writer) (steps : List Step) : Writer where
  level := (Step.emitAll w.level steps).2
  lines := w.lines ++ (Step.emitAll w.level steps).1

theorem run_append (w : Writer) (left right : List Step) :
    w.run (left ++ right) = (w.run left).run right := by
  simp [run, Step.emitAll_append, List.append_assoc]

def runApart (w : Writer) (script : List Step) : Writer :=
  if w.isEmpty then w.run script else (w.run [.blank]).run script

theorem runApart_eq (w : Writer) (script : List Step) :
    w.runApart script = w.run ((if w.isEmpty then [] else [.blank]) ++ script) := by
  unfold runApart
  cases w.isEmpty with
  | true => rfl
  | false => exact (w.run_append [.blank] script).symm

def textOf (width : Nat) (lines : List Line) : String :=
  String.join (lines.map (Line.render (min width widestIndent)))

def text (w : Writer) (width : Nat) : String := textOf width w.lines

end Writer

end ActionWiring
