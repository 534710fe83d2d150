import Mathlib.Data.List.Infix
import ActionWiring.Proofs.LineReading

namespace ActionWiring

namespace Step

def isIndent : Step → Bool
  | .indent => true
  | .line _ | .blank | .dedent | .block _ _ => false

def isDedent : Step → Bool
  | .dedent => true
  | .line _ | .blank | .indent | .block _ _ => false

def writes : Step → Bool
  | .line _ | .blank | .block _ _ => true
  | .indent | .dedent => false

mutual

def unroll : Step → List Step
  | .line body => [.line body]
  | .blank => [.blank]
  | .indent => [.indent]
  | .dedent => [.dedent]
  | .block header body =>
      .line (header ++ " \x7b") :: .indent :: (unrollAll body ++ [.dedent, .line "\x7d"])

def unrollAll : List Step → List Step
  | [] => []
  | step :: steps => unroll step ++ unrollAll steps

end

mutual

def bodies : Step → List (List Step)
  | .block _ body => body :: bodiesOf body
  | .line _ | .blank | .indent | .dedent => []

def bodiesOf : List Step → List (List Step)
  | [] => []
  | step :: steps => bodies step ++ bodiesOf steps

end

structure Even (steps : List Step) : Prop where
  above : ∀ front, front <+: steps → front.countP isDedent ≤ front.countP isIndent
  settled : steps.countP isDedent = steps.countP isIndent

instance (steps : List Step) : Decidable (Even steps) :=
  decidable_of_iff
    ((∀ front ∈ steps.inits, front.countP isDedent ≤ front.countP isIndent) ∧
      steps.countP isDedent = steps.countP isIndent)
    ⟨fun h => ⟨fun front hfront => h.1 front ((List.mem_inits _ _).2 hfront), h.2⟩,
      fun h => ⟨fun front hfront => h.above front ((List.mem_inits _ _).1 hfront), h.settled⟩⟩

def Balanced (steps : List Step) : Prop := Even steps ∧ ∀ body ∈ bodiesOf steps, Even body

instance (steps : List Step) : Decidable (Balanced steps) :=
  inferInstanceAs (Decidable (_ ∧ _))

section Unrolling

mutual

theorem emitAll_unroll (step : Step) (level : Nat) :
    emitAll level (unroll step) = emit level step := by
  match step with
  | .line body => rfl
  | .blank => rfl
  | .indent => rfl
  | .dedent => rfl
  | .block header body =>
      rw [unroll, emitAll, emitAll, emitAll_append, emitAll_unrollAll body, emit, emit, emit]
      simp [emitAll, emit]

theorem emitAll_unrollAll (steps : List Step) (level : Nat) :
    emitAll level (unrollAll steps) = emitAll level steps := by
  match steps with
  | [] => rfl
  | step :: steps =>
      rw [unrollAll, emitAll_append, emitAll_unroll step, emitAll_unrollAll steps, emitAll]

end

theorem unrollAll_append (left right : List Step) :
    unrollAll (left ++ right) = unrollAll left ++ unrollAll right := by
  induction left with
  | nil => rfl
  | cons step steps ih => rw [List.cons_append, unrollAll, unrollAll, ih, List.append_assoc]

end Unrolling

def climb : Nat → List Step → Option Nat
  | level, [] => some level
  | level, .indent :: steps => climb (level + 1) steps
  | 0, .dedent :: _ => none
  | level + 1, .dedent :: steps => climb level steps
  | level, .line _ :: steps | level, .blank :: steps | level, .block _ _ :: steps =>
      climb level steps

section Climbing

variable {steps : List Step} {level last : Nat}

theorem climb_of_counts
    (above : ∀ front, front <+: steps → front.countP isDedent ≤ level + front.countP isIndent)
    (settled : last + steps.countP isDedent = level + steps.countP isIndent) :
    climb level steps = some last := by
  induction steps generalizing level with
  | nil =>
      have hlast : last = level := settled
      rw [climb, hlast]
  | cons step steps ih =>
      have hrest (front : List Step) (hfront : front <+: steps) :=
        above (step :: front) ((List.prefix_cons_inj step).2 hfront)
      simp only [List.countP_cons] at hrest settled
      cases step with
      | indent =>
          simp only [isIndent, isDedent, if_true, Bool.false_eq_true, if_false] at hrest settled
          rw [climb]
          exact ih (fun front hfront => by have := hrest front hfront; omega) (by omega)
      | dedent =>
          simp only [isIndent, isDedent, if_true, Bool.false_eq_true, if_false] at hrest settled
          have hpositive := hrest [] (List.nil_prefix)
          obtain ⟨below, rfl⟩ : ∃ below, level = below + 1 :=
            ⟨level - 1, by simp at hpositive; omega⟩
          rw [climb]
          exact ih (fun front hfront => by have := hrest front hfront; omega) (by omega)
      | line body => exact ih hrest settled
      | blank => exact ih hrest settled
      | block header body => exact ih hrest settled

theorem Even.climb (h : Even steps) : climb 0 steps = some 0 :=
  climb_of_counts (fun front hfront => by have := h.above front hfront; omega)
    (by rw [h.settled])

theorem climb_append (level : Nat) (left right : List Step) :
    climb level (left ++ right) = (climb level left).bind fun middle => climb middle right := by
  induction left generalizing level with
  | nil => rfl
  | cons step steps ih =>
      cases step with
      | indent => exact ih (level + 1)
      | dedent =>
          cases level with
          | zero => rfl
          | succ level => exact ih level
      | line body => exact ih level
      | blank => exact ih level
      | block header body => exact ih level

theorem climb_add (h : climb level steps = some last) (m : Nat) :
    climb (level + m) steps = some (last + m) := by
  induction steps generalizing level with
  | nil =>
      cases h
      rfl
  | cons step steps ih =>
      cases step with
      | indent =>
          have hnext := ih h
          rw [Nat.add_right_comm] at hnext
          exact hnext
      | dedent =>
          cases level with
          | zero => cases h
          | succ level =>
              rw [Nat.add_right_comm]
              exact ih h
      | line body => exact ih h
      | blank => exact ih h
      | block header body => exact ih h

end Climbing

end Step

def Line.deepen (m : Nat) : Line → Line
  | .blank => .blank
  | .text depth body => .text (depth + m) body

namespace Step

mutual

theorem emit_of_climb (step : Step) (even : ∀ body ∈ bodies step, Even body) {level last : Nat}
    (h : climb level [step] = some last) (m : Nat) :
    (emit level step).2 = last ∧
      emit (level + m) step = ((emit level step).1.map (Line.deepen m), last + m) := by
  match step with
  | .line body =>
      cases h
      exact ⟨rfl, rfl⟩
  | .blank =>
      cases h
      exact ⟨rfl, rfl⟩
  | .indent =>
      cases h
      exact ⟨rfl, by simp [emit, Nat.add_right_comm]⟩
  | .dedent =>
      cases level with
      | zero => cases h
      | succ level =>
          cases h
          exact ⟨rfl, by simp [emit, Nat.add_right_comm]⟩
  | .block header body =>
      cases h
      rw [bodies, List.forall_mem_cons] at even
      have hclimb := climb_add even.1.climb (level + 1)
      rw [Nat.zero_add] at hclimb
      obtain ⟨hlevel, hlines⟩ := emitAll_of_climb body even.2 hclimb m
      rw [Nat.add_right_comm] at hlines
      simp [emit, hlevel, hlines, Line.deepen]

theorem emitAll_of_climb (steps : List Step) (even : ∀ body ∈ bodiesOf steps, Even body)
    {level last : Nat} (h : climb level steps = some last) (m : Nat) :
    (emitAll level steps).2 = last ∧
      emitAll (level + m) steps = ((emitAll level steps).1.map (Line.deepen m), last + m) := by
  match steps with
  | [] =>
      cases h
      exact ⟨rfl, rfl⟩
  | step :: steps =>
      rw [bodiesOf, List.forall_mem_append] at even
      rw [← List.singleton_append, climb_append, Option.bind_eq_some_iff] at h
      obtain ⟨middle, hstep, hsteps⟩ := h
      obtain ⟨hlevel, hlines⟩ := emit_of_climb step even.1 hstep m
      obtain ⟨hlast, hrest⟩ := emitAll_of_climb steps even.2 hsteps m
      rw [emitAll, emitAll, hlevel, hlines, hrest]
      exact ⟨hlast, by rw [List.map_append]⟩

end

section Balance

variable {steps body : List Step} {step : Step} {header : String}

theorem Balanced.climb (h : Balanced steps) (level : Nat) : climb level steps = some level := by
  have hclimb := climb_add h.1.climb level
  rwa [Nat.zero_add] at hclimb

theorem Balanced.level_emitAll (h : Balanced steps) (level : Nat) :
    (emitAll level steps).2 = level :=
  (emitAll_of_climb steps h.2 (h.climb level) 0).1

theorem Balanced.emitAll_add (h : Balanced steps) (level m : Nat) :
    (emitAll (level + m) steps).1 = (emitAll level steps).1.map (Line.deepen m) := by
  rw [(emitAll_of_climb steps h.2 (h.climb level) m).2]

theorem emit_block_of_balanced (h : Balanced body) (level : Nat) (header : String) :
    emit level (.block header body) =
      (.text level (header ++ " \x7b") :: ((emitAll (level + 1) body).1 ++ [.text level "\x7d"]),
        level) := by
  rw [emit, h.level_emitAll (level + 1), Nat.add_sub_cancel]

inductive Occurs (step : Step) : List Step → List Step → List Step → Prop
  | here (left right : List Step) :
      Occurs step (unrollAll left) (left ++ step :: right) (unrollAll right)
  | inside {before body after : List Step} (left right : List Step) (header : String) :
      Occurs step before body after →
        Occurs step (unrollAll left ++ .line (header ++ " \x7b") :: .indent :: before)
          (left ++ .block header body :: right)
          (after ++ .dedent :: .line "\x7d" :: unrollAll right)

variable {before after : List Step}

theorem Occurs.unrollAll_eq (h : Occurs step before steps after) :
    unrollAll steps = before ++ unroll step ++ after := by
  induction h with
  | here left right => rw [unrollAll_append, unrollAll, List.append_assoc]
  | inside left right header _ ih =>
      rw [unrollAll_append, unrollAll, unroll, ih]
      simp

theorem bodiesOf_append (left right : List Step) :
    bodiesOf (left ++ right) = bodiesOf left ++ bodiesOf right := by
  induction left with
  | nil => rfl
  | cons step steps ih => rw [List.cons_append, bodiesOf, bodiesOf, ih, List.append_assoc]

theorem Occurs.bodies_subset (h : Occurs step before steps after) :
    bodies step ⊆ bodiesOf steps := by
  induction h with
  | here left right =>
      intro body hbody
      rw [bodiesOf_append, bodiesOf]
      exact List.mem_append_right _ (List.mem_append_left _ hbody)
  | inside left right header _ ih =>
      intro body hbody
      rw [bodiesOf_append, bodiesOf, bodies]
      exact List.mem_append_right _ (List.mem_append_left _ (List.mem_cons_of_mem _ (ih hbody)))

theorem Balanced.of_occurs (h : Balanced steps)
    (occurs : Occurs (.block header body) before steps after) : Balanced body := by
  have hbodies := fun inner hinner => h.2 inner (occurs.bodies_subset hinner)
  rw [bodies, List.forall_mem_cons] at hbodies
  exact hbodies

end Balance

end Step

def margin (width level : Nat) : String :=
  String.ofList (List.replicate (min width 16 * level) ' ')

theorem margin_zero (width : Nat) : margin width 0 = "" := rfl

theorem margin_add (width near far : Nat) :
    margin width (near + far) = margin width near ++ margin width far := by
  rw [margin, Nat.mul_add, ← List.replicate_append_replicate, String.ofList_append, margin, margin]

namespace Line

def behind (width m : Nat) : Line → String
  | .blank => "\n"
  | .text depth body => margin width m ++ margin width depth ++ body ++ "\n"

theorem render_deepen (width m : Nat) (line : Line) :
    (line.deepen m).render (min width widestIndent) = line.behind width m := by
  cases line with
  | blank => rfl
  | text depth body =>
      have hmargin : margin width (depth + m) = margin width m ++ margin width depth := by
        rw [Nat.add_comm, margin_add]
      rw [behind, ← hmargin]
      rfl

theorem deepen_zero (line : Line) : line.deepen 0 = line := by
  cases line with
  | blank => rfl
  | text depth body => rfl

theorem behind_zero_text (width level : Nat) (body : String) :
    (Line.text level body).behind width 0 = margin width level ++ body ++ "\n" := by
  rw [behind, margin_zero, String.empty_append]

end Line

namespace Writer

variable (w : Writer) (width : Nat) {front steps : List Step}

theorem textOf_deepen (m : Nat) (lines : List Line) :
    textOf width (lines.map (Line.deepen m)) = String.join (lines.map (Line.behind width m)) := by
  rw [textOf, List.map_map]
  exact congrArg String.join (List.map_congr_left fun line _ => line.render_deepen width m)

theorem textOf_eq_behind (lines : List Line) :
    textOf width lines = String.join (lines.map (Line.behind width 0)) := by
  have hsame : lines.map (Line.deepen 0) = lines :=
    List.map_id'' Line.deepen_zero lines
  rw [← textOf_deepen, hsame]

theorem text_run (steps : List Step) :
    (w.run steps).text width =
      w.text width ++ String.join ((Step.emitAll w.level steps).1.map (Line.behind width 0)) := by
  rw [text, run, textOf_append, textOf_eq_behind width (Step.emitAll w.level steps).1, text]

theorem text_run_line (body : String) :
    (w.run [.line body]).text width = w.text width ++ (margin width w.level ++ body ++ "\n") := by
  rw [text_run, ← Line.behind_zero_text]
  simp [Step.emitAll, Step.emit]

theorem text_run_blank : (w.run [.blank]).text width = w.text width ++ "\n" := by
  rw [text_run]
  rfl

theorem text_run_indent : (w.run [.indent]).text width = w.text width := by
  rw [text_run]
  exact String.append_empty

theorem text_run_dedent : (w.run [.dedent]).text width = w.text width := by
  rw [text_run]
  exact String.append_empty

theorem run_unrollAll (steps : List Step) : w.run (Step.unrollAll steps) = w.run steps := by
  rw [run, run, Step.emitAll_unrollAll]

theorem text_cases : w.text width = "" ∧ w.isEmpty = true ∨
    (∃ front, w.text width = front ++ "\n") ∧ w.isEmpty = false := by
  rcases List.eq_nil_or_concat w.lines with hnil | ⟨lines, line, hlast⟩
  · exact .inl ⟨by rw [text, hnil]; rfl, by rw [isEmpty, hnil]; rfl⟩
  · refine .inr ⟨⟨textOf width lines ++ line.content (min width widestIndent), ?_⟩,
      by simp [isEmpty, hlast]⟩
    rw [text, hlast, List.concat_eq_append, textOf_append, String.append_assoc, ← Line.render_eq]
    simp [textOf]

theorem text_run_block {body : List Step} (balanced : Step.Balanced body) (header : String) :
    (w.run [.block header body]).level = w.level ∧
      ∃ inner, (({ w with level := w.level + 1 } : Writer).run body).text width =
          w.text width ++ inner ∧
        (w.run [.block header body]).text width =
          w.text width ++ (margin width w.level ++ header ++ " \x7b\n") ++ inner ++
            (margin width w.level ++ "\x7d\n") := by
  have hblock := Step.emit_block_of_balanced balanced w.level header
  have hemit : Step.emitAll w.level [.block header body] =
      Step.emit w.level (.block header body) := by
    rw [Step.emitAll, Step.emitAll, List.append_nil]
  refine ⟨by rw [run, hemit, hblock], _, text_run _ width body, ?_⟩
  rw [text_run, hemit, hblock]
  simp only [List.map_cons, List.map_append, List.map_nil, String.join_cons, String.join_append,
    Line.behind_zero_text]
  simp [String.append_assoc]

theorem emitAll_eq_nil_iff (level : Nat) (steps : List Step) :
    (Step.emitAll level steps).1 = [] ↔ ∀ step ∈ steps, step.writes = false := by
  induction steps generalizing level with
  | nil => simp [Step.emitAll]
  | cons step steps ih =>
      rw [Step.emitAll, List.append_eq_nil_iff, ih, List.forall_mem_cons]
      cases step <;> simp [Step.emit, Step.writes]

theorem isEmpty_run (steps : List Step) :
    (w.run steps).isEmpty = true ↔ w.isEmpty = true ∧ ∀ step ∈ steps, step.writes = false := by
  rw [isEmpty, isEmpty, List.isEmpty_iff, List.isEmpty_iff, run, List.append_eq_nil_iff,
    emitAll_eq_nil_iff]

theorem exists_text_run (steps : List Step) :
    ∃ added, (w.run steps).text width = w.text width ++ added :=
  ⟨_, w.text_run width steps⟩

theorem run_of_occurs {step : Step} {before after : List Step}
    (h : Step.Occurs step before steps after) :
    ((w.run before).run [step]).run after = w.run steps := by
  have hstep : Step.unroll step = Step.unrollAll [step] := (List.append_nil _).symm
  rw [← w.run_unrollAll steps, h.unrollAll_eq, run_append, run_append, hstep, run_unrollAll]

theorem run_script (w : Writer) (width : Nat) (steps : List Step) :
    (∀ front back, Step.unrollAll steps = front ++ back →
      let now := w.run front
      now.run back = w.run steps ∧
        (∃ added, now.text width = w.text width ++ added) ∧
        (∃ added, (w.run steps).text width = now.text width ++ added) ∧
        (now.isEmpty = true ↔ w.isEmpty = true ∧ ∀ step ∈ front, step.writes = false) ∧
        (now.isEmpty = true ↔ now.text width = "") ∧
        (now.text width = "" ∨ ∃ body, now.text width = body ++ "\n") ∧
        (∀ body, (now.run [.line body]).text width =
            now.text width ++ (margin width now.level ++ body ++ "\n") ∧
          (now.run [.line body]).level = now.level) ∧
        ((now.run [.blank]).text width = now.text width ++ "\n" ∧
          (now.run [.blank]).level = now.level) ∧
        ((now.run [.indent]).text width = now.text width ∧
          (now.run [.indent]).level = now.level + 1) ∧
        (now.run [.dedent]).text width = now.text width ∧
          (now.run [.dedent]).level = now.level - 1) ∧
      (Step.Balanced steps →
        (w.run steps).level = w.level ∧
          (∀ header body before after, Step.Occurs (.block header body) before steps after →
            let now := w.run before
            let whole := now.run [.block header body]
            whole.run after = w.run steps ∧ whole.level = now.level ∧
              ∃ inner, (({ now with level := now.level + 1 } : Writer).run body).text width =
                  now.text width ++ inner ∧
                whole.text width =
                  now.text width ++ (margin width now.level ++ header ++ " \x7b\n") ++ inner ++
                    (margin width now.level ++ "\x7d\n")) ∧
          ∀ (other : Writer) (m : Nat), other.level = w.level + m →
            ∃ lines, (w.run steps).lines = w.lines ++ lines ∧
              (w.run steps).text width =
                w.text width ++ String.join (lines.map (Line.behind width 0)) ∧
              (other.run steps).text width =
                other.text width ++ String.join (lines.map (Line.behind width m))) := by
  refine ⟨fun front back hsteps => ?_, fun balanced => ⟨?_, ?_, ?_⟩⟩
  · have hwhole : (w.run front).run back = w.run steps := by
      rw [← run_append, ← hsteps, run_unrollAll]
    have hgrows := (w.run front).exists_text_run width back
    rw [hwhole] at hgrows
    have hcases := (w.run front).text_cases width
    refine ⟨hwhole, w.exists_text_run width front, hgrows, w.isEmpty_run front, ?_,
      hcases.imp And.left And.left, fun body => ⟨(w.run front).text_run_line width body, rfl⟩,
      ⟨(w.run front).text_run_blank width, rfl⟩, ⟨(w.run front).text_run_indent width, rfl⟩,
      (w.run front).text_run_dedent width, rfl⟩
    rcases hcases with ⟨htext, hempty⟩ | ⟨⟨body, htext⟩, hempty⟩
    · simp [htext, hempty]
    · simp [htext, hempty]
  · exact balanced.level_emitAll w.level
  · intro header body before after occurs
    exact ⟨w.run_of_occurs occurs,
      (w.run before).text_run_block width (balanced.of_occurs occurs) header⟩
  · intro other m hlevel
    refine ⟨_, rfl, w.text_run width steps, ?_⟩
    rw [text, run, textOf_append, hlevel, balanced.emitAll_add, textOf_deepen, text]

theorem run_script_nested :
    let method : Step := .block "void f()" [.indent, .line "x;", .dedent]
    let steps := [.indent, .block "class A" [.blank, method], .dedent, .line "y"]
    let near : Writer := { level := 1 }
    let far : Writer := { level := 3, lines := [.blank] }
    (near.run [.indent]).isEmpty = true ∧ (near.run steps).level = 1 ∧
      (∃ before inner, (near.run (before ++ [method])).text 2 =
        (near.run before).text 2 ++ "      void f() \x7b\n" ++ inner ++ "      \x7d\n") ∧
      (near.run steps).text 2 =
        "    class A \x7b\n\n      void f() \x7b\n          x;\n      \x7d\n    \x7d\n  y\n" ∧
      (far.run steps).text 2 = "\n" ++ "        class A \x7b\n\n          void f() \x7b\n" ++
        "              x;\n          \x7d\n        \x7d\n      y\n" := by
  intro method steps near far
  obtain ⟨hmoments, hbalanced⟩ := near.run_script 2 steps
  obtain ⟨hlevel, hblocks, hshift⟩ := hbalanced (by decide)
  obtain ⟨-, -, -, hempty, -⟩ := hmoments [.indent] _ rfl
  have occurs : Step.Occurs method _ steps _ :=
    .inside [.indent] [.dedent, .line "y"] "class A" (.here [.blank] [])
  obtain ⟨-, -, inner, -, htext⟩ := hblocks _ _ _ _ occurs
  rw [← run_append] at htext
  obtain ⟨lines, hlines, hnear, hfar⟩ := hshift far 2 rfl
  have hwritten : lines = (near.run steps).lines := hlines.symm
  refine ⟨hempty.2 (by decide), hlevel, ⟨_, inner, htext⟩, ?_, ?_⟩
  · rw [hnear, hwritten]
    decide +kernel
  · rw [hfar, hwritten]
    decide +kernel

end Writer

end ActionWiring
