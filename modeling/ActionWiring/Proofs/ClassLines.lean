import ActionWiring.Plan.Layout
import ActionWiring.Proofs.TidyLines

namespace ActionWiring

theorem Step.emitAll_lines {ι : Type} (level : Nat) (items : List ι) (body : ι → String) :
    emitAll level (items.map fun i => .line (body i)) =
      (items.map fun i => .text level (body i), level) := by
  induction items with
  | nil => rfl
  | cons i items ih => simp [emitAll, emit, ih]

def WiringSubclass.fieldBodies (c : WiringSubclass) : List String :=
  c.dispatchers.map (ActionEntry.dispatcherLine c.dispatcherType) ++ c.nested.map NestedEntry.line

def WiringSubclass.methodLines (c : WiringSubclass) : List Line :=
  [Line.text 1 Dart.overrideAnnotation, Line.text 1 (setDispatcherHeader ++ " \x7b")] ++
  (c.forwarded.map fun name => Line.text 2 (forwardLine name)) ++
  [Line.text 1 "\x7d"]

def WiringSubclass.lines (c : WiringSubclass) : List Line :=
  [Line.text 0 ("class " ++ c.className ++ " extends " ++ c.baseName ++ " \x7b"),
    Line.text 1 ("factory " ++ c.className ++ "() => new " ++ c.className ++ "._();"),
    Line.text 1 (c.className ++ "._() : super._();")] ++
  (if c.fieldBodies = [] then [] else Line.blank :: c.fieldBodies.map fun body => Line.text 1 body) ++
  [Line.blank] ++ c.methodLines ++ [Line.text 0 "\x7d"]

def NamesClass.lines (c : NamesClass) : List Line :=
  [Line.text 0 ("class " ++ c.className ++ " \x7b")] ++
  (c.entries.map fun e => Line.text 1 (e.nameLine c.nameType)) ++
  [Line.text 0 "\x7d"]

theorem WiringSubclass.emitAll_fieldSteps (c : WiringSubclass) (level : Nat) :
    Step.emitAll level c.fieldSteps =
      (if c.fieldBodies = [] then [] else .blank :: c.fieldBodies.map fun body => .text level body,
        level) := by
  have hlines := Step.emitAll_lines level c.fieldBodies fun body => body
  rw [fieldSteps, ← fieldBodies]
  by_cases h : c.fieldBodies = []
  · simp [h, Step.emitAll]
  · simp [h, Step.emitAll, Step.emit, hlines]

theorem WiringSubclass.emitAll_script (c : WiringSubclass) :
    Step.emitAll 0 c.script = (c.lines, 0) := by
  simp [script, lines, methodLines, Step.emitAll, Step.emit, Step.emitAll_append,
    emitAll_fieldSteps, Step.emitAll_lines]

theorem NamesClass.emitAll_script (c : NamesClass) : Step.emitAll 0 c.script = (c.lines, 0) := by
  simp [script, lines, Step.emitAll, Step.emit, Step.emitAll_lines]

theorem oneLine_literal {value : String} (h : OneLine value) : OneLine (Dart.literal value) := by
  have hescape : ∀ c, '\n' ∈ Dart.escapeChar c → c = '\n' := by
    intro c hc
    unfold Dart.escapeChar at hc
    split at hc
    · simpa [eq_comm] using hc
    · simpa [eq_comm] using hc
  rw [OneLine, Dart.toList_literal, Dart.literalChars]
  intro hmem
  simp only [List.mem_cons, List.mem_append, List.mem_flatMap, List.not_mem_nil, or_false] at hmem
  rcases hmem with hquote | ⟨c, hc, hmem⟩ | hquote
  · exact absurd hquote (by decide)
  · exact h (hescape c hmem ▸ hc)
  · exact absurd hquote (by decide)

def ActionEntry.texts (e : ActionEntry) : List String := [e.name, e.payload, e.key]

def NestedEntry.texts (e : NestedEntry) : List String := [e.name, e.typeName]

def WiringSubclass.texts (c : WiringSubclass) : List String :=
  [c.className, c.baseName, c.dispatcherType] ++ c.dispatchers.flatMap ActionEntry.texts ++
    c.nested.flatMap NestedEntry.texts

def NamesClass.texts (c : NamesClass) : List String :=
  [c.className, c.nameType] ++ c.entries.flatMap ActionEntry.texts

def ContainerPlan.texts (p : ContainerPlan) : List String :=
  p.container :: (p.wiring.elim [] WiringSubclass.texts ++ p.names.texts)

theorem ActionEntry.firm_creation {type : String} {e : ActionEntry} (ht : OneLine type)
    (h : ∀ text ∈ e.texts, OneLine text) : Firm (e.creation type) := by
  have hpayload : OneLine e.payload := h _ (by simp [texts])
  have hkey : OneLine e.key := h _ (by simp [texts])
  apply firm_append
  · simp +decide [ht, hpayload, oneLine_literal hkey]
  · decide

theorem ActionEntry.firm_dispatcherLine {type : String} {e : ActionEntry} (ht : OneLine type)
    (h : ∀ text ∈ e.texts, OneLine text) : Firm (e.dispatcherLine type) := by
  have hname : OneLine e.name := h _ (by simp [texts])
  apply firm_append
  · simp +decide [hname]
  · exact firm_creation ht h

theorem ActionEntry.firm_nameLine {type : String} {e : ActionEntry} (ht : OneLine type)
    (h : ∀ text ∈ e.texts, OneLine text) : Firm (e.nameLine type) := by
  have hname : OneLine e.name := h _ (by simp [texts])
  apply firm_append
  · simp +decide [hname]
  · exact firm_creation ht h

theorem NestedEntry.firm_line {e : NestedEntry} (h : ∀ text ∈ e.texts, OneLine text) :
    Firm e.line := by
  have hname : OneLine e.name := h _ (by simp [texts])
  have htype : OneLine e.typeName := h _ (by simp [texts])
  apply firm_append
  · simp +decide [hname, htype]
  · decide

theorem WiringSubclass.firm_forwardLine {name : String} (h : OneLine name) :
    Firm (forwardLine name) := by
  apply firm_append
  · simp +decide [h]
  · decide

theorem NamesClass.tidy_lines {c : NamesClass} (h : ∀ text ∈ c.texts, OneLine text) :
    Tidy c.lines := by
  have hclass : OneLine c.className := h _ (by simp [texts])
  have htype : OneLine c.nameType := h _ (by simp [texts])
  have hentries : ∀ e ∈ c.entries, Firm (e.nameLine c.nameType) := by
    intro e he
    apply ActionEntry.firm_nameLine htype
    intro text htext
    exact h text (List.mem_append_right _ (List.mem_flatMap.2 ⟨e, he, htext⟩))
  have hheader : Firm ("class " ++ c.className ++ " \x7b") := by
    apply firm_append
    · simp +decide [hclass]
    · decide
  have hclose : Firm "\x7d" := by decide
  rw [lines, List.append_assoc]
  exact .next hheader (.texts_append hentries (.last hclose))

theorem WiringSubclass.firm_of_mem_fieldBodies {c : WiringSubclass}
    (h : ∀ text ∈ c.texts, OneLine text) : ∀ body ∈ c.fieldBodies, Firm body := by
  have htype : OneLine c.dispatcherType := h _ (by simp [texts])
  intro body hbody
  rcases List.mem_append.1 hbody with hbody | hbody
  · obtain ⟨e, he, rfl⟩ := List.mem_map.1 hbody
    apply ActionEntry.firm_dispatcherLine htype
    intro text htext
    have hmem : text ∈ c.dispatchers.flatMap ActionEntry.texts := List.mem_flatMap.2 ⟨e, he, htext⟩
    exact h text (List.mem_append_left _ (List.mem_append_right _ hmem))
  · obtain ⟨e, he, rfl⟩ := List.mem_map.1 hbody
    apply NestedEntry.firm_line
    intro text htext
    exact h text (List.mem_append_right _ (List.mem_flatMap.2 ⟨e, he, htext⟩))

theorem WiringSubclass.oneLine_of_mem_forwarded {c : WiringSubclass}
    (h : ∀ text ∈ c.texts, OneLine text) : ∀ name ∈ c.forwarded, OneLine name := by
  intro name hname
  apply h
  rcases List.mem_append.1 hname with hname | hname
  · obtain ⟨e, he, rfl⟩ := List.mem_map.1 hname
    have hmem : e.name ∈ c.dispatchers.flatMap ActionEntry.texts :=
      List.mem_flatMap.2 ⟨e, he, by simp [ActionEntry.texts]⟩
    exact List.mem_append_left _ (List.mem_append_right _ hmem)
  · obtain ⟨e, he, rfl⟩ := List.mem_map.1 hname
    exact List.mem_append_right _ (List.mem_flatMap.2 ⟨e, he, by simp [NestedEntry.texts]⟩)

theorem WiringSubclass.tidy_methodLines {c : WiringSubclass}
    (h : ∀ text ∈ c.texts, OneLine text) : Tidy c.methodLines := by
  have hannotation : Firm Dart.overrideAnnotation := by decide
  have hheader : Firm (setDispatcherHeader ++ " \x7b") := by
    apply firm_append
    · decide
    · decide
  have hclose : Firm "\x7d" := by decide
  have hforwards : ∀ name ∈ c.forwarded, Firm (forwardLine name) := by
    intro name hname
    exact firm_forwardLine (oneLine_of_mem_forwarded h name hname)
  rw [methodLines, List.append_assoc]
  exact .next hannotation (.next hheader (.texts_append hforwards (.last hclose)))

theorem WiringSubclass.tidy_lines {c : WiringSubclass} (h : ∀ text ∈ c.texts, OneLine text) :
    Tidy c.lines := by
  have hclass : OneLine c.className := h _ (by simp [texts])
  have hbase : OneLine c.baseName := h _ (by simp [texts])
  have hheader : Firm ("class " ++ c.className ++ " extends " ++ c.baseName ++ " \x7b") := by
    apply firm_append
    · simp +decide [hclass, hbase]
    · decide
  have hfactory : Firm ("factory " ++ c.className ++ "() => new " ++ c.className ++ "._();") := by
    apply firm_append
    · simp +decide [hclass]
    · decide
  have hnamed : Firm (c.className ++ "._() : super._();") := by
    apply firm_append hclass
    decide
  have hclose : Firm "\x7d" := by decide
  have hmethod : Tidy (c.methodLines ++ [Line.text 0 "\x7d"]) :=
    (tidy_methodLines h).append (.last hclose)
  have hfields := firm_of_mem_fieldBodies h
  rw [lines]
  by_cases hnone : c.fieldBodies = []
  · simpa [hnone] using Tidy.next hheader (.next hfactory (.gap hnamed hmethod))
  · have hbodies : Tidy (c.fieldBodies.map fun body => Line.text 1 body) := .texts hnone hfields
    have hgroup := hbodies.append_gap hmethod
    simpa [hnone] using Tidy.next hheader (.next hfactory (.gap hnamed hgroup))

end ActionWiring
