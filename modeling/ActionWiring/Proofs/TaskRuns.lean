import ActionWiring.Files.Tasks
import ActionWiring.Files.Workspace

namespace ActionWiring

namespace Workspace

variable {w w' : Workspace} {model output text path : String} {s : Settings} {α β : Type}

def carryOut (w : Workspace) (task : Task.Run (StateM Workspace) α) :
    Except TaskFailure α × Workspace :=
  task.run.run w

def Reads (w : Workspace) (task : Task.Run (StateM Workspace) α) (outcome : Except TaskFailure α) :
    Prop :=
  w.carryOut task = (outcome, w)

section

variable {t : Task.Run (StateM Workspace) α} {f : α → Task.Run (StateM Workspace) β}
  {x : Except TaskFailure α} {g : α → Except TaskFailure β}

theorem carryOut_bind :
    w.carryOut (t >>= f) =
      match (w.carryOut t).1 with
      | .ok a => (w.carryOut t).2.carryOut (f a)
      | .error failure => (.error failure, (w.carryOut t).2) := by
  rw [carryOut, ExceptT.run_bind, StateT.run_bind]
  cases h : t.run.run w with
  | mk outcome left =>
      rw [carryOut, h]
      cases outcome with
      | ok a => rfl
      | error failure => rfl

theorem Reads.bind_ok {a : α} (h : w.Reads t (.ok a)) :
    w.carryOut (t >>= f) = w.carryOut (f a) := by
  rw [carryOut_bind, h]

theorem Reads.bind_error {failure : TaskFailure} (h : w.Reads t (.error failure)) :
    w.carryOut (t >>= f) = (.error failure, w) := by
  rw [carryOut_bind, h]

theorem Reads.bind (h : w.Reads t x) (hf : ∀ a, w.Reads (f a) (g a)) :
    w.Reads (t >>= f) (x >>= g) := by
  cases x with
  | ok a => exact h.bind_ok.trans (hf a)
  | error failure => exact h.bind_error

theorem Reads.answered {a : α} {y : Except TaskFailure β} (h : w.Reads t (.ok a))
    (hf : w.Reads (f a) y) : w.Reads (t >>= f) y :=
  h.bind_ok.trans hf

theorem reads_pure (a : α) : w.Reads (pure a) (.ok a) := rfl

theorem reads_throw (failure : TaskFailure) :
    w.Reads (throw failure : Task.Run (StateM Workspace) α) (.error failure) := rfl

theorem reads_orFail {ε : Type} (failure : ε → TaskFailure) (outcome : Except ε α) :
    w.Reads (Task.orFail failure outcome) (outcome.mapError failure) := by
  cases outcome with
  | ok a => rfl
  | error e => rfl

theorem reads_size (path : String) :
    w.Reads (FileAccess.size path) (.ok (w.size path)) := rfl

theorem reads_read (path : String) :
    w.Reads (FileAccess.read path) (.ok (w.read path)) := rfl

end

def modelText (w : Workspace) (path : String) : Except TaskFailure String := do
  let size ← (w.size path).mapError (.inaccessible path)
  if size > largestModel then .error (.tooLarge path size)
  (w.read path).mapError (.unreadable path)

def unitOf (w : Workspace) (path : String) : Except TaskFailure CompilationUnit := do
  let source ← w.modelText path
  (CompilationUnit.load source).mapError (.notLoaded path)

def textFor (w : Workspace) (path : String) (s : Settings) : Except TaskFailure String := do
  let u ← w.unitOf path
  (u.generate s).mapError (.notGenerated path)

theorem reads_readModel (path : String) :
    w.Reads (Task.readModel path) (w.modelText path) := by
  refine (reads_size path).answered ?_
  refine (reads_orFail _ _).bind fun size => ?_
  split
  · exact reads_throw _
  · exact (reads_read path).answered (reads_orFail _ _)

theorem reads_unitFrom (path : String) : w.Reads (Task.unitFrom path) (w.unitOf path) :=
  (reads_readModel path).bind fun _ => reads_orFail _ _

theorem reads_generatedText (path : String) (s : Settings) :
    w.Reads (Task.generatedText path s) (w.textFor path s) :=
  (reads_unitFrom path).bind fun _ => reads_orFail _ _

def comparison (w : Workspace) (model output text : String) : Except TaskFailure String :=
  match w.read output with
  | .ok current =>
      if current = text then .ok ("✓ " ++ output ++ " is up to date\n")
      else .error (.outOfDate output model)
  | .error _ => .error (.outOfDate output model)

def listing (w : Workspace) (model : String) (s : Settings) : Except TaskFailure String := do
  let u ← w.unitOf model
  let plans ← (u.plan s).mapError (.notGenerated model)
  return String.join (plans.map fun p => p.summary ++ "\n")

theorem reads_compare (model output text : String) :
    w.Reads (Task.compare model output text) (w.comparison model output text) := by
  refine (reads_read output).answered ?_
  rw [comparison]
  cases w.read output with
  | ok current =>
      dsimp only
      split
      · exact reads_pure _
      · exact reads_throw _
  | error cause => exact reads_throw _

theorem reads_generate_check (model output : String) (s : Settings) :
    w.Reads (Task.generate model (some output) true s)
      (w.textFor model s >>= w.comparison model output) :=
  (reads_generatedText model s).bind fun text => reads_compare model output text

theorem reads_generate_printed (model : String) (check : Bool) (s : Settings) :
    w.Reads (Task.generate model none check s) (w.textFor model s) := by
  have h : w.Reads (Task.generate model none check s) (w.textFor model s >>= pure) :=
    (reads_generatedText model s).bind reads_pure
  rwa [bind_pure] at h

theorem reads_list (model : String) (s : Settings) :
    w.Reads (Task.list model s) (w.listing model s) :=
  (reads_unitFrom model).bind fun _ => (reads_orFail _ _).bind fun _ => reads_pure _

theorem carryOut_generate_of_error {failure : TaskFailure} (h : w.textFor model s = .error failure)
    (output : Option String) (check : Bool) :
    w.carryOut (Task.generate model output check s) = (.error failure, w) :=
  Reads.bind_error (h ▸ reads_generatedText model s)

theorem run_write (output text : String) :
    (FileAccess.write output text : StateM Workspace _).run w =
      match w.write output text with
      | .ok w' => (.ok (), w')
      | .error cause => (.error cause, w) := by
  simp only [FileAccess.write, StateT.run_bind, StateT.run_get, pure_bind]
  cases w.write output text with
  | ok w' => rfl
  | error cause => rfl

theorem carryOut_lift (x : StateM Workspace α) :
    w.carryOut (ExceptT.lift x) = (.ok (x.run w).1, (x.run w).2) := rfl

theorem carryOut_write_ok (h : w.write output text = .ok w') :
    w.carryOut (FileAccess.write output text) = (.ok (.ok ()), w') := by
  refine (carryOut_lift _).trans ?_
  rw [run_write, h]

theorem reads_write_error {cause : OsError} (h : w.write output text = .error cause) :
    w.Reads (FileAccess.write output text) (.ok (.error cause)) := by
  refine (carryOut_lift _).trans ?_
  rw [run_write, h]

theorem carryOut_generate_written (htext : w.textFor model s = .ok text)
    (hwrite : w.write output text = .ok w') :
    w.carryOut (Task.generate model (some output) false s) = (.ok "", w') := by
  have htask : w.Reads (Task.generatedText model s) (.ok text) := htext ▸ reads_generatedText model s
  refine htask.bind_ok.trans ?_
  refine carryOut_bind.trans ?_
  rw [carryOut_write_ok hwrite]
  rfl

theorem carryOut_generate_unwritten {cause : OsError} (htext : w.textFor model s = .ok text)
    (hwrite : w.write output text = .error cause) :
    w.carryOut (Task.generate model (some output) false s) =
      (.error (.notWritten output cause), w) := by
  have htask : w.Reads (Task.generatedText model s) (.ok text) := htext ▸ reads_generatedText model s
  refine htask.bind_ok.trans ?_
  refine (reads_write_error hwrite).bind_ok.trans ?_
  rfl

end Workspace

end ActionWiring
