import ActionWiring.Proofs.OpenBlocks
import ActionWiring.Proofs.UnitLayout

namespace ActionWiring

theorem Step.placed_freshLines {script : List Step} (h : ∀ step ∈ script, step.WellPlaced) :
    Placed [] (freshLines script) [] := by
  obtain ⟨lines, hlines, hplaced⟩ := emitAll_wellPlaced h []
  rwa [freshLines, ← List.length_nil, hlines]

theorem ContainerPlan.wellPlaced_scripts (p : ContainerPlan) :
    ∀ script ∈ p.scripts, ∀ step ∈ script, step.WellPlaced := by
  unfold scripts
  cases p.wiring with
  | none => exact List.forall_mem_singleton.2 p.names.wellPlaced_script
  | some c =>
      exact List.forall_mem_cons.2
        ⟨c.wellPlaced_script, List.forall_mem_singleton.2 p.names.wellPlaced_script⟩

namespace Settings

variable {s t : Settings} {plans : List ContainerPlan}

def artifacts (s : Settings) (plans : List ContainerPlan) : List (List Line) :=
  if plans = [] then [] else (s.scripts plans).map Step.freshLines

theorem artifacts_of_ne_nil (s : Settings) (hne : plans ≠ []) :
    s.artifacts plans = (s.scripts plans).map Step.freshLines := if_neg hne

theorem artifacts_congr (h : s.emitHeader = t.emitHeader) (plans : List ContainerPlan) :
    s.artifacts plans = t.artifacts plans := by
  rw [artifacts, artifacts, scripts, scripts, h]

theorem renderPlans_eq_textOf (s : Settings) (plans : List ContainerPlan) :
    s.renderPlans plans =
      Writer.textOf s.indentWidth ([Line.blank].intercalate (s.artifacts plans)) := by
  by_cases hne : plans = []
  · subst hne
    rfl
  · rw [s.renderPlans_eq hne, s.lines_write, s.artifacts_of_ne_nil hne]

theorem placed_artifacts (s : Settings) (plans : List ContainerPlan) :
    ∀ lines ∈ s.artifacts plans, Placed [] lines [] := by
  unfold artifacts
  split
  · exact fun lines hlines => nomatch hlines
  · refine List.forall_mem_map.2 (forall_mem_scripts ?_ fun p _ script hscript => ?_)
    · exact Step.placed_freshLines Dart.wellPlaced_lintSuppressions
    · exact Step.placed_freshLines (p.wellPlaced_scripts script hscript)

theorem firm_of_mem_artifacts (s : Settings)
    (hone : ∀ p ∈ plans, ∀ text ∈ p.texts, OneLine text) {depth : Nat} {body : String}
    (h : Line.text depth body ∈ [Line.blank].intercalate (s.artifacts plans)) : Firm body := by
  by_cases hne : plans = []
  · subst hne
    cases h
  · rw [s.artifacts_of_ne_nil hne, ← s.lines_write] at h
    exact (s.tidy_write hne hone).firm_of_mem h

theorem linesOf_artifacts (s : Settings) (hone : ∀ p ∈ plans, ∀ text ∈ p.texts, OneLine text) :
    linesOf (s.renderPlans plans) =
      ([Line.blank].intercalate (s.artifacts plans) ++ [Line.blank]).map
        (Line.content (min s.indentWidth widestIndent)) := by
  by_cases hne : plans = []
  · subst hne
    rfl
  · rw [s.linesOf_renderPlans hne hone, s.lines_write, s.artifacts_of_ne_nil hne, List.map_append]
    rfl

def SameBody (s t : Settings) (left right : String) : Prop :=
  ∃ depth body, left = s.spaces depth ++ body ∧ right = t.spaces depth ++ body

theorem sameBody_content (s t : Settings) (line : Line) :
    s.SameBody t (line.content (min s.indentWidth widestIndent))
      (line.content (min t.indentWidth widestIndent)) := by
  cases line with
  | blank => exact ⟨0, "", rfl, rfl⟩
  | text depth body => exact ⟨depth, body, rfl, rfl⟩

theorem sameBody_renderPlans (h : s.emitHeader = t.emitHeader)
    (hone : ∀ p ∈ plans, ∀ text ∈ p.texts, OneLine text) :
    List.Forall₂ (s.SameBody t) (linesOf (s.renderPlans plans)) (linesOf (t.renderPlans plans)) := by
  rw [s.linesOf_artifacts hone, t.linesOf_artifacts hone, artifacts_congr h, List.forall₂_map_left_iff,
    List.forall₂_map_right_iff, List.forall₂_same]
  exact fun line _ => s.sameBody_content t line

theorem renderPlans_of_wide (h : s.emitHeader = t.emitHeader) (hs : widestIndent ≤ s.indentWidth)
    (ht : widestIndent ≤ t.indentWidth) (plans : List ContainerPlan) :
    s.renderPlans plans = t.renderPlans plans := by
  rw [renderPlans_eq_textOf, renderPlans_eq_textOf, artifacts_congr h, Writer.textOf, Writer.textOf,
    Nat.min_eq_right hs, Nat.min_eq_right ht]

theorem renderPlans_indented (header : Bool) (plans : List ContainerPlan)
    (hone : ∀ p ∈ plans, ∀ text ∈ p.texts, OneLine text) :
    ∃ artifacts : List (List Line),
      let lines : List Line := [Line.blank].intercalate artifacts
      (∀ depth body, Line.text depth body ∈ lines → Firm body) ∧
      (∀ (i : Nat) (line : Line), lines[i]? = some line →
        line.StandsIn (openAfter (lines.take i))) ∧
      (∀ n, openAfter ([Line.blank].intercalate (artifacts.take n)) = []) ∧
      ∀ s : Settings, s.emitHeader = header →
        (plans ≠ [] →
          artifacts.map (Writer.textOf s.indentWidth) = (s.scripts plans).map s.alone) ∧
        linesOf (s.renderPlans plans) =
          (lines ++ [Line.blank]).map (Line.content (min s.indentWidth widestIndent)) ∧
        ∀ t : Settings, t.emitHeader = header →
          List.Forall₂ (s.SameBody t) (linesOf (s.renderPlans plans))
            (linesOf (t.renderPlans plans)) ∧
          (widestIndent ≤ s.indentWidth → widestIndent ≤ t.indentWidth →
            s.renderPlans plans = t.renderPlans plans) := by
  let r : Settings := { emitHeader := header }
  have hplaced := r.placed_artifacts plans
  refine ⟨r.artifacts plans, fun depth body => r.firm_of_mem_artifacts hone, ?_, ?_, ?_⟩
  · intro i line hline
    exact (Placed.intercalate hplaced).standsIn hline
  · intro n
    apply Placed.foldl_openBlocks
    exact .intercalate fun lines hlines => hplaced lines (List.mem_of_mem_take hlines)
  · intro s hs
    rw [artifacts_congr (s := r) (t := s) hs.symm]
    refine ⟨?_, s.linesOf_artifacts hone, ?_⟩
    · intro hne
      rw [s.artifacts_of_ne_nil hne, List.map_map]
      rfl
    · intro t ht
      have hheader : s.emitHeader = t.emitHeader := hs.trans ht.symm
      exact ⟨sameBody_renderPlans hheader hone,
        fun hwide hwide' => renderPlans_of_wide hheader hwide hwide' plans⟩

open CompilationUnit in
theorem renderPlans_indented_sample :
    let plans := [sampleAppPlan, sampleChildPlan]
    let narrow : Settings := { indentWidth := 1 }
    let wide : Settings := { indentWidth := 1000 }
    ∃ lines : List Line, openAfter lines = [] ∧
      linesOf (narrow.renderPlans plans) = (lines ++ [Line.blank]).map (Line.content 1) ∧
      linesOf (wide.renderPlans plans) = (lines ++ [Line.blank]).map (Line.content 16) ∧
      wide.renderPlans plans = { wide with indentWidth := 16 }.renderPlans plans := by
  intro plans narrow wide
  have hone : ∀ p ∈ plans, ∀ text ∈ p.texts, OneLine text := by decide
  obtain ⟨artifacts, -, -, hclosed, htexts⟩ := renderPlans_indented true plans hone
  obtain ⟨-, hnarrow, -⟩ := htexts narrow rfl
  obtain ⟨-, hwide, hsame⟩ := htexts wide rfl
  have hends := hclosed artifacts.length
  rw [List.take_length] at hends
  obtain ⟨-, hwidest⟩ := hsame { wide with indentWidth := 16 } rfl
  exact ⟨_, hends, hnarrow, hwide, hwidest (by decide) (by decide)⟩

end Settings

end ActionWiring
