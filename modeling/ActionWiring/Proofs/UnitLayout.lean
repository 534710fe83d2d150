import ActionWiring.Proofs.ClassLines
import ActionWiring.Proofs.PlanContents

namespace ActionWiring

theorem intercalate_append {α : Type} (separator : List α) {left right : List (List α)}
    (hleft : left ≠ []) (hright : right ≠ []) :
    separator.intercalate (left ++ right) =
      separator.intercalate left ++ separator ++ separator.intercalate right := by
  induction left with
  | nil => exact absurd rfl hleft
  | cons block left ih =>
      cases left with
      | nil => simp [List.intercalate_cons_of_ne_nil hright]
      | cons next left =>
          have hnext := ih (List.cons_ne_nil _ _)
          rw [List.cons_append, List.intercalate_cons_of_ne_nil (by simp), hnext,
            List.intercalate_cons_of_ne_nil (List.cons_ne_nil _ _)]
          simp

theorem exists_intercalate_around {α : Type} (separator : List α) (left right : List (List α))
    {middle : List (List α)} (hmiddle : middle ≠ []) :
    ∃ before after, separator.intercalate (left ++ middle ++ right) =
      before ++ separator.intercalate middle ++ after := by
  have hfront : ∃ before, separator.intercalate (left ++ middle) =
      before ++ separator.intercalate middle := by
    cases left with
    | nil => exact ⟨[], rfl⟩
    | cons block left => exact ⟨_, intercalate_append separator (List.cons_ne_nil _ _) hmiddle⟩
  obtain ⟨before, hbefore⟩ := hfront
  cases right with
  | nil => exact ⟨before, [], by simp [hbefore]⟩
  | cons block right =>
      have hne : left ++ middle ≠ [] := by simp [hmiddle]
      refine ⟨before, separator ++ separator.intercalate (block :: right), ?_⟩
      rw [intercalate_append separator hne (List.cons_ne_nil _ _), hbefore, List.append_assoc]

namespace Writer

theorem textOf_intercalate (width : Nat) (blocks : List (List Line)) :
    textOf width ([Line.blank].intercalate blocks) =
      String.intercalate "\n" (blocks.map (textOf width)) := by
  induction blocks with
  | nil => rfl
  | cons block blocks ih =>
      cases blocks with
      | nil => simp
      | cons next blocks =>
          have hgap : textOf width [Line.blank] = "\n" := rfl
          rw [List.intercalate_cons_of_ne_nil (List.cons_ne_nil _ _), List.map_cons,
            String.intercalate_cons_of_ne_nil (by simp), textOf_append, textOf_append, hgap, ih]

theorem textOf_ne_empty (width : Nat) {lines : List Line} (hne : lines ≠ []) :
    textOf width lines ≠ "" := by
  cases lines with
  | nil => exact absurd rfl hne
  | cons line lines =>
      intro hempty
      have hline : textOf width (line :: lines) =
          line.content (min width widestIndent) ++ "\n" ++ textOf width lines := by
        rw [← Line.render_eq]
        exact textOf_append width [line] lines
      rw [hline, ← String.toList_inj] at hempty
      simp at hempty

end Writer

namespace Step

def freshLines (script : List Step) : List Line := (emitAll 0 script).1

structure Standalone (script : List Step) : Prop where
  written : freshLines script ≠ []
  balanced : (emitAll 0 script).2 = 0

end Step

theorem NamesClass.standalone_script (c : NamesClass) : Step.Standalone c.script where
  written := by simp [Step.freshLines, c.emitAll_script, lines]
  balanced := by rw [c.emitAll_script]

theorem WiringSubclass.standalone_script (c : WiringSubclass) : Step.Standalone c.script where
  written := by simp [Step.freshLines, c.emitAll_script, lines]
  balanced := by rw [c.emitAll_script]

theorem Dart.standalone_lintSuppressions :
    Step.Standalone (lintSuppressions.map Step.line) where
  written := by decide
  balanced := by decide

theorem Dart.tidy_lintSuppressions : Tidy (Step.freshLines (lintSuppressions.map Step.line)) := by
  have hfirm : ∀ line ∈ lintSuppressions, Firm line := by
    intro line hline
    obtain ⟨lint, hlint, rfl⟩ := List.mem_map.1 hline
    apply firm_append
    · decide
    · revert lint
      decide +kernel
  rw [Step.freshLines, Step.emitAll_lines 0 lintSuppressions fun line => line]
  exact .texts (by decide) hfirm

def ContainerPlan.scripts (p : ContainerPlan) : List (List Step) :=
  (p.wiring.map WiringSubclass.script).toList ++ [p.names.script]

theorem ContainerPlan.tidy_scripts {p : ContainerPlan} (h : ∀ text ∈ p.texts, OneLine text) :
    ∀ script ∈ p.scripts, Tidy (Step.freshLines script) := by
  have hnames : Tidy (Step.freshLines p.names.script) := by
    rw [Step.freshLines, p.names.emitAll_script]
    apply NamesClass.tidy_lines
    intro text htext
    exact h text (List.mem_cons_of_mem _ (List.mem_append_right _ htext))
  cases hw : p.wiring with
  | none => simpa [scripts, hw] using hnames
  | some c =>
      have hclass : Tidy (Step.freshLines c.script) := by
        rw [Step.freshLines, c.emitAll_script]
        apply WiringSubclass.tidy_lines
        intro text htext
        apply h
        simp [texts, hw, htext]
      simpa [scripts, hw] using And.intro hclass hnames

structure Writer.Shows (w : Writer) (scripts : List (List Step)) : Prop where
  level : w.level = 0
  lines : w.lines = [Line.blank].intercalate (scripts.map Step.freshLines)
  isEmpty : w.isEmpty = scripts.isEmpty

namespace Writer.Shows

variable {w : Writer} {scripts : List (List Step)}

theorem nothing : Writer.Shows {} [] where
  level := rfl
  lines := rfl
  isEmpty := rfl

theorem lines_concat (h : w.Shows scripts) (script : List Step) :
    w.lines ++ (if w.isEmpty then [] else [Line.blank]) ++ Step.freshLines script =
      [Line.blank].intercalate ((scripts ++ [script]).map Step.freshLines) := by
  rw [h.isEmpty, h.lines]
  cases scripts with
  | nil => simp
  | cons first scripts =>
      rw [List.map_append, intercalate_append [Line.blank] (by simp) (by simp)]
      simp

theorem runApart (h : w.Shows scripts) {script : List Step} (hs : Step.Standalone script) :
    (w.runApart script).Shows (scripts ++ [script]) := by
  have hemitted : Step.emitAll w.level ((if w.isEmpty then [] else [.blank]) ++ script) =
      ((if w.isEmpty then [] else [Line.blank]) ++ Step.freshLines script, 0) := by
    rw [h.level, Step.emitAll_append]
    cases w.isEmpty with
    | true => simp [Step.emitAll, Step.freshLines, hs.balanced]
    | false => simp [Step.emitAll, Step.emit, Step.freshLines, hs.balanced]
  have hlines : (w.runApart script).lines =
      w.lines ++ ((if w.isEmpty then [] else [Line.blank]) ++ Step.freshLines script) := by
    rw [Writer.runApart_eq, Writer.run, hemitted]
  refine ⟨?_, ?_, ?_⟩
  · rw [Writer.runApart_eq, Writer.run, hemitted]
  · rw [hlines, ← h.lines_concat script, List.append_assoc]
  · rw [Writer.isEmpty, hlines, Bool.eq_iff_iff, List.isEmpty_iff, List.isEmpty_iff]
    simp [hs.written]

theorem write (h : w.Shows scripts) (p : ContainerPlan) :
    (p.write w).Shows (scripts ++ p.scripts) := by
  have hnames := p.names.standalone_script
  unfold ContainerPlan.write ContainerPlan.scripts
  cases p.wiring with
  | none => exact h.runApart hnames
  | some c =>
      have hboth := (h.runApart c.standalone_script).runApart hnames
      rw [List.append_assoc] at hboth
      exact hboth

theorem foldl_write (h : w.Shows scripts) (plans : List ContainerPlan) :
    (plans.foldl ContainerPlan.write w).Shows (scripts ++ plans.flatMap ContainerPlan.scripts) := by
  induction plans generalizing w scripts with
  | nil => simpa using h
  | cons p plans ih =>
      have hrest := ih (h.write p)
      simpa using hrest

end Writer.Shows

namespace Settings

variable {s : Settings} {plans more : List ContainerPlan}

def scripts (s : Settings) (plans : List ContainerPlan) : List (List Step) :=
  (if s.emitHeader then [Dart.lintSuppressions.map Step.line] else []) ++
    plans.flatMap ContainerPlan.scripts

theorem write_shows (s : Settings) (plans : List ContainerPlan) :
    (s.write plans).Shows (s.scripts plans) := by
  apply Writer.Shows.foldl_write
  unfold headerScript
  cases s.emitHeader with
  | false => exact .nothing
  | true => exact Writer.Shows.nothing.runApart Dart.standalone_lintSuppressions

def spaces (s : Settings) (depth : Nat) : String :=
  String.ofList (List.replicate (min s.indentWidth widestIndent * depth) ' ')

theorem content_text (s : Settings) (depth : Nat) (body : String) :
    (Line.text depth body).content (min s.indentWidth widestIndent) = s.spaces depth ++ body := rfl

theorem spaces_zero (s : Settings) : s.spaces 0 = "" := rfl

def alone (s : Settings) (script : List Step) : String := (Writer.run {} script).text s.indentWidth

theorem forall_mem_scripts {P : List Step → Prop} (hheader : P (Dart.lintSuppressions.map Step.line))
    (hclasses : ∀ p ∈ plans, ∀ script ∈ p.scripts, P script) : ∀ script ∈ s.scripts plans, P script := by
  unfold scripts
  rw [List.forall_mem_append, List.forall_mem_flatMap]
  refine ⟨?_, hclasses⟩
  cases s.emitHeader with
  | false => exact fun script hscript => nomatch hscript
  | true => exact List.forall_mem_singleton.2 hheader

theorem scripts_ne_nil (s : Settings) (hne : plans ≠ []) : s.scripts plans ≠ [] := by
  obtain ⟨p, rest, rfl⟩ := List.exists_cons_of_ne_nil hne
  simp [scripts, ContainerPlan.scripts]

theorem scripts_append (s : Settings) (plans more : List ContainerPlan) :
    s.scripts (plans ++ more) = s.scripts plans ++ { s with emitHeader := false }.scripts more := by
  simp [scripts]

theorem lines_write (s : Settings) (plans : List ContainerPlan) :
    (s.write plans).lines = [Line.blank].intercalate ((s.scripts plans).map Step.freshLines) :=
  (s.write_shows plans).lines

theorem renderPlans_eq (s : Settings) (hne : plans ≠ []) :
    s.renderPlans plans = Writer.textOf s.indentWidth (s.write plans).lines := by
  simp [renderPlans, Writer.text, hne]

theorem renderPlans_eq_intercalate (s : Settings) (hne : plans ≠ []) :
    s.renderPlans plans = String.intercalate "\n" ((s.scripts plans).map s.alone) := by
  rw [s.renderPlans_eq hne, s.lines_write, Writer.textOf_intercalate, List.map_map]
  rfl

theorem renderPlans_append (s : Settings) (hne : plans ≠ []) (hmore : more ≠ []) :
    s.renderPlans (plans ++ more) =
      s.renderPlans plans ++ "\n" ++ { s with emitHeader := false }.renderPlans more := by
  have hleft := s.scripts_ne_nil hne
  have hright := { s with emitHeader := false }.scripts_ne_nil hmore
  rw [s.renderPlans_eq_intercalate (by simp [hne]), s.renderPlans_eq_intercalate hne,
    renderPlans_eq_intercalate _ hmore, s.scripts_append, List.map_append,
    String.intercalate_append_of_ne_nil (by simpa using hleft) (by simpa using hright)]
  rfl

theorem renderPlans_eq_empty_iff (s : Settings) (plans : List ContainerPlan) :
    s.renderPlans plans = "" ↔ plans = [] := by
  constructor
  · intro hempty
    cases plans with
    | nil => rfl
    | cons p plans =>
        have hne : p :: plans ≠ [] := List.cons_ne_nil _ _
        have hblocks : (s.write (p :: plans)).isEmpty = false := by
          rw [(s.write_shows _).isEmpty]
          simpa using s.scripts_ne_nil hne
        have hlines : (s.write (p :: plans)).lines ≠ [] := by
          simpa [Writer.isEmpty] using hblocks
        rw [s.renderPlans_eq hne] at hempty
        exact absurd hempty (Writer.textOf_ne_empty _ hlines)
  · rintro rfl
    rfl

theorem tidy_write (s : Settings) (hne : plans ≠ [])
    (h : ∀ p ∈ plans, ∀ text ∈ p.texts, OneLine text) : Tidy (s.write plans).lines := by
  have hblocks : ∀ block ∈ (s.scripts plans).map Step.freshLines, Tidy block :=
    List.forall_mem_map.2 <| forall_mem_scripts Dart.tidy_lintSuppressions
      fun p hp => ContainerPlan.tidy_scripts (h p hp)
  rw [s.lines_write]
  exact .intercalate (by simpa using s.scripts_ne_nil hne) hblocks

theorem laidOut_renderPlans (s : Settings) (hne : plans ≠ [])
    (h : ∀ p ∈ plans, ∀ text ∈ p.texts, OneLine text) : LaidOut (s.renderPlans plans) := by
  rw [s.renderPlans_eq hne]
  exact (s.tidy_write hne h).laidOut _

theorem linesOf_renderPlans (s : Settings) (hne : plans ≠ [])
    (h : ∀ p ∈ plans, ∀ text ∈ p.texts, OneLine text) :
    linesOf (s.renderPlans plans) =
      (s.write plans).lines.map (Line.content (min s.indentWidth widestIndent)) ++ [""] := by
  rw [s.renderPlans_eq hne, (s.tidy_write hne h).linesOf_textOf]

theorem exists_lines_around (s : Settings) {p : ContainerPlan} (hp : p ∈ plans) {c : WiringSubclass}
    (hw : p.wiring = some c) :
    ∃ before after, (s.write plans).lines =
      before ++ (c.lines ++ [Line.blank] ++ p.names.lines) ++ after := by
  obtain ⟨front, back, rfl⟩ := List.append_of_mem hp
  have hscripts : s.scripts (front ++ p :: back) =
      s.scripts front ++ [c.script, p.names.script] ++ back.flatMap ContainerPlan.scripts := by
    simp [scripts, ContainerPlan.scripts, hw]
  have hclasses : [Line.blank].intercalate ([c.script, p.names.script].map Step.freshLines) =
      c.lines ++ [Line.blank] ++ p.names.lines := by
    simp [Step.freshLines, c.emitAll_script, p.names.emitAll_script]
  rw [s.lines_write, hscripts, List.map_append, List.map_append, ← hclasses]
  exact exists_intercalate_around _ _ _ (by simp)

theorem renderPlans_layout (s : Settings) (plans : List ContainerPlan) :
    (s.renderPlans plans = "" ↔ plans = []) ∧
      (plans ≠ [] →
        s.renderPlans plans = String.intercalate "\n" ((s.scripts plans).map s.alone)) ∧
      (∀ more, plans ≠ [] → more ≠ [] →
        s.renderPlans (plans ++ more) =
          s.renderPlans plans ++ "\n" ++ { s with emitHeader := false }.renderPlans more) ∧
      (plans ≠ [] → (∀ p ∈ plans, ∀ text ∈ p.texts, OneLine text) →
        LaidOut (s.renderPlans plans)) := by
  refine ⟨s.renderPlans_eq_empty_iff plans, ?_, ?_, ?_⟩
  · exact s.renderPlans_eq_intercalate
  · intro more
    exact s.renderPlans_append
  · exact s.laidOut_renderPlans

open CompilationUnit in
theorem renderPlans_layout_sample :
    let s : Settings := { indentWidth := 4 }
    let blocks := (s.scripts [sampleAppPlan, sampleChildPlan]).map s.alone
    blocks.length = 4 ∧
      s.renderPlans [sampleAppPlan, sampleChildPlan] = String.intercalate "\n" blocks ∧
      s.renderPlans ([sampleAppPlan] ++ [sampleChildPlan]) =
        s.renderPlans [sampleAppPlan] ++ "\n" ++
          { s with emitHeader := false }.renderPlans [sampleChildPlan] ∧
      LaidOut (s.renderPlans [sampleAppPlan, sampleChildPlan]) := by
  intro s blocks
  obtain ⟨-, hblocks, -, hlaid⟩ := s.renderPlans_layout [sampleAppPlan, sampleChildPlan]
  obtain ⟨-, -, happend, -⟩ := s.renderPlans_layout [sampleAppPlan]
  have hone : ∀ p ∈ [sampleAppPlan, sampleChildPlan], ∀ text ∈ p.texts, OneLine text := by decide
  exact ⟨rfl, hblocks (by decide), happend [sampleChildPlan] (by decide) (by decide),
    hlaid (by decide) hone⟩

end Settings

end ActionWiring
