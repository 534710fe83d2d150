import ActionWiring.Proofs.ClassLines
import ActionWiring.Proofs.PlanContents
import ActionWiring.Proofs.TextRules

namespace ActionWiring

namespace DartType

theorem oneLine_applied {name : String} {texts : List String} (hname : OneLine name)
    (h : ∀ text ∈ texts, OneLine text) : OneLine (applied name texts) := by
  unfold applied
  split
  · exact hname
  · have hjoined : OneLine (String.intercalate "," texts) := oneLine_intercalate (by decide) h
    simp +decide [hname, hjoined]

theorem oneLine_builderName {value : String} (h : OneLine value) :
    OneLine (Naming.builderName value) := by
  rw [Naming.builderName, oneLine_append]
  exact ⟨h, by decide⟩

theorem oneLineRule : TextRule OneLine OneLine where
  ofName _ h := h
  void := by decide
  dynamic := by decide
  applied _ _ := oneLine_applied
  builder _ := oneLine_builderName

end DartType

def Field.printedNames (f : Field) : List String := f.name :: f.type.names

def Declaration.printedNames (d : Declaration) : List String :=
  d.name :: d.fields.flatMap Field.printedNames

def CompilationUnit.printedNames (u : CompilationUnit) (s : Settings) : List String :=
  [s.dispatcherMarker, s.actionNameType, s.generatedPrefix] ++
    u.visible.flatMap Declaration.printedNames

theorem ActionEntry.Describes.oneLine_texts {container : String} {f : Field} {e : ActionEntry}
    (h : e.Describes container f) (hcontainer : OneLine container)
    (hnames : ∀ name ∈ f.printedNames, OneLine name) : ∀ text ∈ e.texts, OneLine text := by
  obtain ⟨hname, htype⟩ := List.forall_mem_cons.1 hnames
  have hpayload : OneLine e.payload := by
    obtain ⟨texts, htexts, hpayload⟩ := h.payload
    rw [hpayload]
    split
    · decide
    · exact oneLine_intercalate (by decide) (DartType.oneLineRule.of_argumentTexts htexts htype)
  have hkey : OneLine e.key := by
    rw [h.key]
    simp +decide [hcontainer, hname]
  simp [texts, h.name, hname, hpayload, hkey]

theorem NestedEntry.Describes.oneLine_texts {f : Field} {e : NestedEntry} (h : e.Describes f)
    (hnames : ∀ name ∈ f.printedNames, OneLine name) : ∀ text ∈ e.texts, OneLine text := by
  obtain ⟨hname, htype⟩ := List.forall_mem_cons.1 hnames
  simp [texts, h.name, hname, DartType.oneLineRule.of_render h.typeName htype]

namespace CompilationUnit

variable {u : CompilationUnit} {s : Settings} {d : Declaration} {found : List Declaration}

theorem visible_of_found (hd : d ∈ u.own) (hfound : u.transitiveSupertypes d = .ok found) :
    ∀ e ∈ d :: found, e ∈ u.visible := by
  intro e he
  rcases List.mem_cons.1 he with rfl | he
  · exact List.mem_append_left _ hd
  · exact (mem_of_lookup_eq_some ((listsAbove_of_ok hfound).located e he)).1

theorem oneLine_printedNames (hnames : ∀ name ∈ u.printedNames s, OneLine name)
    (hd : d ∈ u.own) (hfound : u.transitiveSupertypes d = .ok found) :
    OneLine d.name ∧ ∀ f ∈ (d :: found).flatMap Declaration.fields,
      ∀ name ∈ f.printedNames, OneLine name := by
  have hvisible : ∀ e ∈ u.visible, ∀ name ∈ e.printedNames, OneLine name := by
    intro e he name hname
    exact hnames name (List.mem_append_right _ (List.mem_flatMap.2 ⟨e, he, hname⟩))
  constructor
  · exact hvisible d (List.mem_append_left _ hd) d.name List.mem_cons_self
  · intro f hf name hname
    obtain ⟨e, he, hf⟩ := List.mem_flatMap.1 hf
    apply hvisible e (visible_of_found hd hfound e he)
    exact List.mem_cons_of_mem _ (List.mem_flatMap.2 ⟨f, hf, hname⟩)

theorem oneLine_texts_of_plannedAs {p : ContainerPlan}
    (hnames : ∀ name ∈ u.printedNames s, OneLine name) (hd : d ∈ u.own)
    (hfound : u.transitiveSupertypes d = .ok found) (h : u.PlannedAs s d found p) :
    ∀ text ∈ p.texts, OneLine text := by
  obtain ⟨hname, hfields⟩ := oneLine_printedNames hnames hd hfound
  have hsettings : OneLine s.dispatcherMarker ∧ OneLine s.actionNameType ∧
      OneLine s.generatedPrefix := by
    simp only [printedNames, List.forall_mem_append, List.forall_mem_cons] at hnames
    exact ⟨hnames.1.1, hnames.1.2.1, hnames.1.2.2.1⟩
  have hentries : ∀ text ∈ p.names.entries.flatMap ActionEntry.texts, OneLine text := by
    intro text htext
    obtain ⟨e, he, htext⟩ := List.mem_flatMap.1 htext
    obtain ⟨f, hf, hdescribes⟩ := exists_of_mem_right h.entries he
    exact hdescribes.oneLine_texts hname (hfields f (List.mem_filter.1 hf).1) text htext
  have hclass : ∀ text ∈ p.names.texts, OneLine text := by
    have hclassName : OneLine p.names.className := by
      rw [h.className]
      simp +decide [hname]
    rw [NamesClass.texts, List.forall_mem_append, h.nameType]
    exact ⟨by simp [hclassName, hsettings.2.1], hentries⟩
  rw [ContainerPlan.texts, List.forall_mem_cons, List.forall_mem_append, h.container]
  refine ⟨hname, ?_, hclass⟩
  cases hw : p.wiring with
  | none => simp
  | some c =>
      have w := h.wiring c hw
      have hnested : ∀ text ∈ c.nested.flatMap NestedEntry.texts, OneLine text := by
        intro text htext
        obtain ⟨e, he, htext⟩ := List.mem_flatMap.1 htext
        obtain ⟨f, hf, hdescribes⟩ := exists_of_mem_right w.nested he
        exact hdescribes.oneLine_texts (hfields f (List.mem_filter.1 hf).1) text htext
      have hclassName : OneLine c.className := by
        rw [w.className]
        simp [hsettings.2.2, hname]
      rw [Option.elim_some, WiringSubclass.texts, List.forall_mem_append, List.forall_mem_append,
        w.dispatchers]
      exact ⟨⟨by simp [hclassName, w.baseName, hname, w.dispatcherType, hsettings.1], hentries⟩,
        hnested⟩

theorem oneLine_texts_of_plan {plans : List ContainerPlan} (h : u.plan s = .ok plans)
    (hnames : ∀ name ∈ u.printedNames s, OneLine name) :
    ∀ p ∈ plans, ∀ text ∈ p.texts, OneLine text := by
  intro p hp
  obtain ⟨d, hd, -, found, hfound, hplanned⟩ := exists_plannedAs_of_mem h hp
  exact oneLine_texts_of_plannedAs hnames hd hfound hplanned

end CompilationUnit

end ActionWiring
