import Mathlib.Data.List.Basic
import ActionWiring.Plan.Layout

namespace ActionWiring

def opensBlock (body : String) : Bool :=
  (Naming.beginsWith "class " body || Naming.beginsWith "void " body) &&
    body.toList.getLast? == some '\x7b'

theorem opensBlock_class (rest : String) : opensBlock ("class " ++ rest ++ " \x7b") = true := by
  have hlast : ("class " ++ rest ++ " \x7b").toList.getLast? = some '\x7b' := by
    rw [String.toList_append, List.getLast?_append_of_ne_nil _ (by decide)]
    rfl
  rw [opensBlock, hlast, String.append_assoc, Naming.beginsWith_append]
  rfl

def Unbraced (body : String) : Prop :=
  body ≠ "" ∧ body.toList.getLast? ≠ some '\x7b' ∧ body.toList.getLast? ≠ some '\x7d'

instance (body : String) : Decidable (Unbraced body) :=
  inferInstanceAs (Decidable (_ ∧ _))

theorem unbraced_append {front back : String} (h : Unbraced back) : Unbraced (front ++ back) := by
  have hne : back.toList ≠ [] := by simpa using h.1
  rw [Unbraced, String.toList_append, List.getLast?_append_of_ne_nil _ hne]
  exact ⟨by simp [h.1], h.2⟩

theorem Unbraced.ne_close {body : String} (h : Unbraced body) : body ≠ "\x7d" := by
  rintro rfl
  exact h.2.2 rfl

theorem Unbraced.opensBlock_eq_false {body : String} (h : Unbraced body) :
    opensBlock body = false := by
  simp [opensBlock, h.2.1]

theorem ne_close_of_opensBlock {body : String} (h : opensBlock body = true) : body ≠ "\x7d" := by
  rintro rfl
  exact absurd h (by decide)

namespace Line

def openBlocks (headers : List Nat) : Line → List Nat
  | .blank => headers
  | .text depth body =>
      if body = "\x7d" then headers.tail
      else if opensBlock body then depth :: headers
      else headers

def StandsIn (headers : List Nat) : Line → Prop
  | .blank => True
  | .text depth body => if body = "\x7d" then headers.head? = some depth else depth = headers.length

end Line

def openAfter (lines : List Line) : List Nat := lines.foldl Line.openBlocks []

inductive Placed : List Nat → List Line → List Nat → Prop
  | nil (headers : List Nat) : Placed headers [] headers
  | cons {headers after : List Nat} {line : Line} {lines : List Line} :
      line.StandsIn headers → Placed (line.openBlocks headers) lines after →
        Placed headers (line :: lines) after

namespace Placed

variable {headers middle after : List Nat} {left right lines : List Line}

theorem append (hleft : Placed headers left middle) (hright : Placed middle right after) :
    Placed headers (left ++ right) after := by
  induction hleft with
  | nil headers => exact hright
  | cons hline _ ih => exact .cons hline (ih hright)

theorem blank (headers : List Nat) : Placed headers [.blank] headers := .cons trivial (.nil headers)

theorem inner {body : String} (h : Unbraced body) (headers : List Nat) :
    Placed headers [.text headers.length body] headers := by
  refine .cons ?_ ?_
  · simp [Line.StandsIn, h.ne_close]
  · simpa [Line.openBlocks, h.ne_close, h.opensBlock_eq_false] using Placed.nil headers

theorem block {body : String} (h : opensBlock body = true)
    (hlines : Placed (headers.length :: headers) lines (headers.length :: headers)) :
    Placed headers (.text headers.length body :: (lines ++ [.text headers.length "\x7d"]))
      headers := by
  have hclose : Placed (headers.length :: headers) [.text headers.length "\x7d"] headers :=
    .cons rfl (.nil headers)
  refine .cons ?_ ?_
  · simp [Line.StandsIn, ne_close_of_opensBlock h]
  · simpa [Line.openBlocks, ne_close_of_opensBlock h, h] using hlines.append hclose

theorem intercalate {blocks : List (List Line)} (h : ∀ block ∈ blocks, Placed headers block headers) :
    Placed headers ([Line.blank].intercalate blocks) headers := by
  induction blocks with
  | nil => exact .nil headers
  | cons first blocks ih =>
      obtain ⟨hfirst, hblocks⟩ := List.forall_mem_cons.1 h
      cases blocks with
      | nil => simpa using hfirst
      | cons next blocks =>
          rw [List.intercalate_cons_of_ne_nil (List.cons_ne_nil _ _)]
          exact (hfirst.append (blank headers)).append (ih hblocks)

theorem foldl_openBlocks (h : Placed headers lines after) :
    lines.foldl Line.openBlocks headers = after := by
  induction h with
  | nil headers => rfl
  | cons _ _ ih => exact ih

theorem standsIn (h : Placed headers lines after) {i : Nat} {line : Line}
    (hline : lines[i]? = some line) :
    line.StandsIn ((lines.take i).foldl Line.openBlocks headers) := by
  induction h generalizing i with
  | nil headers => cases hline
  | cons hfirst _ ih =>
      cases i with
      | zero =>
          cases hline
          exact hfirst
      | succ i => exact ih hline

end Placed

namespace Step

def WellPlaced (step : Step) : Prop :=
  ∀ headers : List Nat, ∃ lines, emit headers.length step = (lines, headers.length) ∧
    Placed headers lines headers

theorem emitAll_wellPlaced {steps : List Step} (h : ∀ step ∈ steps, step.WellPlaced)
    (headers : List Nat) :
    ∃ lines, emitAll headers.length steps = (lines, headers.length) ∧
      Placed headers lines headers := by
  induction steps with
  | nil => exact ⟨[], rfl, .nil headers⟩
  | cons step steps ih =>
      obtain ⟨hstep, hsteps⟩ := List.forall_mem_cons.1 h
      obtain ⟨first, hfirst, hleft⟩ := hstep headers
      obtain ⟨rest, hrest, hright⟩ := ih hsteps
      exact ⟨first ++ rest, by rw [emitAll, hfirst, hrest], hleft.append hright⟩

theorem wellPlaced_line {body : String} (h : Unbraced body) : (Step.line body).WellPlaced :=
  fun headers => ⟨_, rfl, .inner h headers⟩

theorem wellPlaced_blank : Step.blank.WellPlaced := fun headers => ⟨_, rfl, .blank headers⟩

theorem wellPlaced_block {header : String} {body : List Step}
    (hheader : opensBlock (header ++ " \x7b") = true) (hbody : ∀ step ∈ body, step.WellPlaced) :
    (Step.block header body).WellPlaced := by
  intro headers
  obtain ⟨lines, hlines, hplaced⟩ := emitAll_wellPlaced hbody (headers.length :: headers)
  rw [List.length_cons] at hlines
  exact ⟨_, by rw [emit, hlines]; rfl, .block hheader hplaced⟩

theorem wellPlaced_lines {ι : Type} {items : List ι} {body : ι → String}
    (h : ∀ i ∈ items, Unbraced (body i)) :
    ∀ step ∈ items.map fun i => Step.line (body i), step.WellPlaced :=
  List.forall_mem_map.2 fun i hi => wellPlaced_line (h i hi)

end Step

theorem ActionEntry.unbraced_creation (type : String) (e : ActionEntry) :
    Unbraced (e.creation type) := by
  apply unbraced_append
  decide

theorem WiringSubclass.wellPlaced_fieldSteps (c : WiringSubclass) :
    ∀ step ∈ c.fieldSteps, step.WellPlaced := by
  have hdispatchers : ∀ e ∈ c.dispatchers, Unbraced (e.dispatcherLine c.dispatcherType) :=
    fun e _ => unbraced_append (e.unbraced_creation _)
  have hnested : ∀ e ∈ c.nested, Unbraced e.line := by
    intro e _
    apply unbraced_append
    decide
  simp only [fieldSteps]
  split
  · exact fun step hstep => nomatch hstep
  · rw [List.forall_mem_cons, List.map_append, List.map_map, List.map_map, List.forall_mem_append]
    exact ⟨Step.wellPlaced_blank, Step.wellPlaced_lines hdispatchers, Step.wellPlaced_lines hnested⟩

theorem WiringSubclass.wellPlaced_script (c : WiringSubclass) :
    ∀ step ∈ c.script, step.WellPlaced := by
  have hheader : opensBlock ("class " ++ c.className ++ " extends " ++ c.baseName ++ " \x7b") = true := by
    simpa only [String.append_assoc] using
      opensBlock_class (c.className ++ " extends " ++ c.baseName)
  have hfactory : Unbraced ("factory " ++ c.className ++ "() => new " ++ c.className ++ "._();") := by
    apply unbraced_append
    decide
  have hnamed : Unbraced (c.className ++ "._() : super._();") := by
    apply unbraced_append
    decide
  have hforward : ∀ name ∈ c.forwarded, Unbraced (forwardLine name) := by
    intro name _
    apply unbraced_append
    decide
  have hmethod : (Step.block setDispatcherHeader
      (c.forwarded.map fun name => .line (forwardLine name))).WellPlaced :=
    Step.wellPlaced_block (by decide) (Step.wellPlaced_lines hforward)
  refine List.forall_mem_singleton.2 (Step.wellPlaced_block hheader ?_)
  simp only [List.forall_mem_append, List.forall_mem_cons]
  exact ⟨⟨⟨Step.wellPlaced_line hfactory, Step.wellPlaced_line hnamed, by simp⟩,
    c.wellPlaced_fieldSteps⟩, Step.wellPlaced_blank, Step.wellPlaced_line (by decide), hmethod, by simp⟩

theorem NamesClass.wellPlaced_script (c : NamesClass) : ∀ step ∈ c.script, step.WellPlaced := by
  have hentries : ∀ e ∈ c.entries, Unbraced (e.nameLine c.nameType) :=
    fun e _ => unbraced_append (e.unbraced_creation _)
  exact List.forall_mem_singleton.2
    (Step.wellPlaced_block (opensBlock_class c.className) (Step.wellPlaced_lines hentries))

theorem Dart.wellPlaced_lintSuppressions :
    ∀ step ∈ lintSuppressions.map Step.line, step.WellPlaced := by
  have hunbraced : ∀ line ∈ lintSuppressions, Unbraced line := by
    refine List.forall_mem_map.2 fun lint hlint => unbraced_append ?_
    revert lint
    decide +kernel
  exact Step.wellPlaced_lines hunbraced

end ActionWiring
