import Mathlib.Data.List.Perm.Subperm
import ActionWiring.Proofs.LiteralReading
import ActionWiring.Proofs.PrintedNames
import ActionWiring.Proofs.UnitLayout

namespace ActionWiring

theorem subperm_of_filters {ι : Type} {p q : ι → Bool} {is : List ι}
    (h : ∀ i ∈ is, q i = true → p i = false) : (is.filter p ++ is.filter q).Subperm is := by
  have hq : is.filter q = (is.filter fun i => !p i).filter q := by
    rw [List.filter_filter]
    refine List.filter_congr fun i hi => ?_
    cases hqi : q i with
    | false => rfl
    | true => simp [h i hi hqi]
  have hsub : (is.filter p ++ is.filter q).Sublist (is.filter p ++ is.filter fun i => !p i) := by
    rw [hq]
    exact List.filter_sublist.append_left _
  exact hsub.subperm.trans (List.filter_append_perm p is).subperm

namespace ActionEntry

def reading (e : ActionEntry) : Reading := ⟨e.name, e.payload, Dart.literal e.key⟩

theorem reads_reading {container start type : String} {e : ActionEntry}
    (hkey : e.key = container ++ "-" ++ e.name) :
    Reads container start type (start ++ e.name ++ " = " ++ e.creation type) e.reading := by
  refine ⟨by rw [reading, hkey], ?_⟩
  have hnew : " = new " = " = " ++ "new " := rfl
  delta creation
  rw [reading, hnew]
  simp only [String.append_assoc]

theorem forall₂_reads_iff {container start type : String} {entries : List ActionEntry}
    (hkeys : ∀ e ∈ entries, e.key = container ++ "-" ++ e.name) (rs : List Reading) :
    List.Forall₂ (Reads container start type)
      (entries.map fun e => start ++ e.name ++ " = " ++ e.creation type) rs ↔
        rs = entries.map reading := by
  rw [List.forall₂_map_left_iff]
  apply forall₂_iff_eq_map
  intro e he r
  have hreads : Reads container start type _ e.reading := reads_reading (hkeys e he)
  constructor
  · intro h
    exact h.unique hreads
  · rintro rfl
    exact hreads

end ActionEntry

namespace DartType

def args : DartType → List DartType
  | .generic _ _ _ args => args
  | .named _ | .void | .dynamic | .unresolved => []

theorem argumentTexts_length {type : DartType} {texts : List String}
    (h : type.argumentTexts = .ok texts) : texts.length = type.args.length := by
  match type with
  | .named _ | .void | .dynamic | .unresolved =>
      cases h
      rfl
  | .generic form name params args =>
      rw [argumentTexts] at h
      split at h
      · exact (renderAll_eq_ok_iff.1 h).length_eq.symm
      · obtain ⟨-, plain, hplain, rfl⟩ := boundedArgumentTexts_eq_ok_iff.1 h
        rw [BuilderSlots.length_fill]
        exact hplain.length_eq.symm

theorem eq_nil_iff_of_argumentTexts {type : DartType} {texts : List String}
    (h : type.argumentTexts = .ok texts) : texts = [] ↔ type.args = [] := by
  rw [← List.length_eq_zero_iff, argumentTexts_length h, List.length_eq_zero_iff]

theorem render_of_args {type : DartType} {name : String} {texts : List String}
    (hname : type.name? = some name) (h : type.argumentTexts = .ok texts) (hargs : type.args ≠ []) :
    type.render = .ok (name ++ "<" ++ String.intercalate "," texts ++ ">") := by
  have htexts : texts ≠ [] := mt (eq_nil_iff_of_argumentTexts h).1 hargs
  match type with
  | .named _ | .void | .dynamic | .unresolved => exact absurd rfl hargs
  | .generic form typeName params args =>
      cases hname
      rw [render_generic, h]
      simp [Except.map, applied, htexts]

end DartType

namespace Settings

def classLines (s : Settings) (container : String) (fields forwards statics : List String) :
    List String :=
  ["class " ++ s.generatedPrefix ++ container ++ " extends " ++ container ++ " \x7b",
    s.spaces 1 ++ "factory " ++ s.generatedPrefix ++ container ++ "() => new " ++
      s.generatedPrefix ++ container ++ "._();",
    s.spaces 1 ++ s.generatedPrefix ++ container ++ "._() : super._();"] ++
  (if fields = [] then [] else "" :: fields) ++
  ["", s.spaces 1 ++ "@override",
    s.spaces 1 ++ "void setDispatcher(Dispatcher dispatcher) \x7b"] ++ forwards ++
  [s.spaces 1 ++ "\x7d", "\x7d", "", "class " ++ container ++ "Names \x7b"] ++ statics ++ ["\x7d"]

def forwardLine (s : Settings) (name : String) : String :=
  s.spaces 2 ++ name ++ ".setDispatcher(dispatcher);"

def dispatcherLines (s : Settings) (type : String) (entries : List ActionEntry) : List String :=
  entries.map fun e => s.spaces 1 ++ "final " ++ e.name ++ " = " ++ e.creation type

def nestedLines (s : Settings) (entries : List NestedEntry) : List String :=
  entries.map fun e => s.spaces 1 ++ e.line

def nameLines (s : Settings) (type : String) (entries : List ActionEntry) : List String :=
  entries.map fun e => s.spaces 1 ++ "static final " ++ e.name ++ " = " ++ e.creation type

-- The texts of entries are opened by delta: the equation of a definition that only appends texts is
-- slow to derive.
theorem content_fieldBodies (s : Settings) (c : WiringSubclass) :
    c.fieldBodies.map (fun body => s.spaces 1 ++ body) =
      s.dispatcherLines c.dispatcherType c.dispatchers ++ s.nestedLines c.nested := by
  rw [WiringSubclass.fieldBodies, List.map_append, List.map_map, List.map_map]
  refine congrArg (· ++ s.nestedLines c.nested) (List.map_congr_left fun e _ => ?_)
  rw [Function.comp_apply]
  delta ActionEntry.dispatcherLine
  simp only [String.append_assoc]

theorem content_entries (s : Settings) (type : String) (entries : List ActionEntry) :
    entries.map (fun e => s.spaces 1 ++ e.nameLine type) = s.nameLines type entries := by
  refine List.map_congr_left fun e _ => ?_
  delta ActionEntry.nameLine
  simp only [String.append_assoc]

theorem content_classes (s : Settings) {container : String} {c : WiringSubclass} {n : NamesClass}
    (hclass : c.className = s.generatedPrefix ++ container) (hbase : c.baseName = container)
    (hnames : n.className = container ++ "Names") :
    (c.lines ++ [Line.blank] ++ n.lines).map (Line.content (min s.indentWidth widestIndent)) =
      s.classLines container
        (s.dispatcherLines c.dispatcherType c.dispatchers ++ s.nestedLines c.nested)
        (c.forwarded.map s.forwardLine) (s.nameLines n.nameType n.entries) := by
  have hheader : WiringSubclass.setDispatcherHeader ++ " \x7b" =
      "void setDispatcher(Dispatcher dispatcher) \x7b" := by decide
  have hforward : ∀ name, s.spaces 2 ++ WiringSubclass.forwardLine name = s.forwardLine name := by
    intro name
    have hcall : ".setDispatcher(dispatcher);" =
        "." ++ Naming.setDispatcherMethod ++ "(" ++ Naming.dispatcherParameter ++ ");" := by decide
    simp only [forwardLine, WiringSubclass.forwardLine, hcall, String.append_assoc]
  rw [← s.content_fieldBodies, ← s.content_entries, WiringSubclass.lines, WiringSubclass.methodLines,
    NamesClass.lines, classLines, hheader, hclass, hbase, hnames]
  simp [apply_ite (List.map _), content_text, spaces_zero, hforward, Dart.overrideAnnotation,
    Function.comp_def, String.append_assoc]

theorem exists_linesOf_around (s : Settings) {plans : List ContainerPlan} {p : ContainerPlan}
    (hp : p ∈ plans) {c : WiringSubclass} (hw : p.wiring = some c)
    (hone : ∀ p ∈ plans, ∀ text ∈ p.texts, OneLine text) {container : String}
    (hclass : c.className = s.generatedPrefix ++ container) (hbase : c.baseName = container)
    (hnames : p.names.className = container ++ "Names") :
    ∃ before after, linesOf (s.renderPlans plans) =
      before ++ s.classLines container
        (s.dispatcherLines c.dispatcherType c.dispatchers ++ s.nestedLines c.nested)
        (c.forwarded.map s.forwardLine) (s.nameLines p.names.nameType p.names.entries) ++ after := by
  obtain ⟨before, after, hlines⟩ := s.exists_lines_around hp hw
  let content := Line.content (min s.indentWidth widestIndent)
  refine ⟨before.map content, after.map content ++ [""], ?_⟩
  rw [s.linesOf_renderPlans (List.ne_nil_of_mem hp) hone, hlines, List.map_append, List.map_append,
    s.content_classes hclass hbase hnames, List.append_assoc]

def CreatesDispatcher (s : Settings) (container : String) (f : Field) (line : String) : Prop :=
  ∃ typeText,
    line = s.spaces 1 ++ "final " ++ f.name ++ " = new " ++ typeText ++ "(" ++
      Dart.literal (container ++ "-" ++ f.name) ++ ");" ∧
    (f.type.args ≠ [] → f.type.render = .ok typeText) ∧
    (f.type.args = [] → typeText = s.dispatcherMarker ++ "<dynamic>")

def CreatesNested (s : Settings) (f : Field) (line : String) : Prop :=
  ∃ typeText, f.type.render = .ok typeText ∧
    line = s.spaces 1 ++ "final " ++ f.name ++ " = new " ++ typeText ++ "();"

theorem createsDispatcher_of_describes (s : Settings) {container : String} {f : Field}
    {e : ActionEntry} (hname : f.type.name? = some s.dispatcherMarker)
    (h : e.Describes container f) :
    s.CreatesDispatcher container f
      (s.spaces 1 ++ "final " ++ e.name ++ " = " ++ e.creation s.dispatcherMarker) := by
  obtain ⟨texts, htexts, hpayload⟩ := h.payload
  have hempty := DartType.eq_nil_iff_of_argumentTexts htexts
  refine ⟨s.dispatcherMarker ++ "<" ++ e.payload ++ ">", ?_, ?_, ?_⟩
  · have hnew : " = new " = " = " ++ "new " := rfl
    have hclose : ">(" = ">" ++ "(" := rfl
    delta ActionEntry.creation
    rw [h.name, h.key, hnew, hclose]
    simp only [String.append_assoc]
  · intro hargs
    rw [DartType.render_of_args hname htexts hargs, hpayload, if_neg (mt hempty.1 hargs)]
  · intro hnone
    have hdynamic : "<dynamic>" = "<" ++ "dynamic" ++ ">" := by decide
    rw [hpayload, if_pos (hempty.2 hnone), hdynamic, String.append_assoc, String.append_assoc,
      String.append_assoc]

theorem createsNested_of_describes (s : Settings) {f : Field} {e : NestedEntry}
    (h : e.Describes f) : s.CreatesNested f (s.spaces 1 ++ e.line) := by
  refine ⟨e.typeName, h.typeName, ?_⟩
  delta NestedEntry.line
  rw [h.name]
  simp only [String.append_assoc]

end Settings

namespace CompilationUnit

variable {u : CompilationUnit} {s : Settings} {d : Declaration} {found : List Declaration}

theorem filter_fields (P : Field → Bool) (ds : List Declaration) :
    (ds.flatMap Declaration.fields).filter P =
      ((OwnedField.ofDeclarations ds).filter fun f => P f.field).map OwnedField.field := by
  rw [← OwnedField.map_field_ofDeclarations, List.filter_map]
  rfl

theorem PlannedAs.entries_owned {p : ContainerPlan} (h : u.PlannedAs s d found p) :
    List.Forall₂ (fun f e => ActionEntry.Describes d.name f.field e)
      ((OwnedField.ofDeclarations (d :: found)).filter fun f =>
        f.field.type.name? = some s.dispatcherMarker) p.names.entries := by
  have hentries := h.entries
  rw [filter_fields, List.forall₂_map_left_iff] at hentries
  exact hentries

open Classical in
theorem WiredBy.nested_owned {entries : List ActionEntry} {c : WiringSubclass}
    (h : u.WiredBy s d found entries c) :
    List.Forall₂ (fun f e => NestedEntry.Describes f.field e)
      ((OwnedField.ofDeclarations (d :: found)).filter fun f =>
        ∃ e, u.Denotes f.field.type e ∧ u.Qualifying s e) c.nested := by
  have hentries := h.nested
  rw [filter_fields, List.forall₂_map_left_iff] at hentries
  exact hentries

theorem nestedEntries_of_planFor {p : ContainerPlan} {c : WiringSubclass}
    (h : u.planFor s d = .ok p) (hw : p.wiring = some c) :
    u.nestedEntries s d = .ok c.nested := by
  obtain ⟨entries, wiring, -, hwiring, rfl⟩ := planFor_eq_ok_iff.1 h
  obtain rfl : wiring = some c := hw
  by_cases many : 1 < d.constructors.length
  · obtain ⟨nested, hnested, hc⟩ := (wiringSubclass_eq_ok_iff many).1 hwiring
    cases hc
    exact hnested
  · rw [wiringSubclass_of_few (Nat.not_lt.1 many)] at hwiring
    cases hwiring

theorem not_dispatched_of_nested (distinct : u.names.Nodup)
    (hfound : u.transitiveSupertypes d = .ok found) {nested : List NestedEntry}
    (hn : u.nestedEntries s d = .ok nested)
    (hmarker : ∀ e, u.lookup s.dispatcherMarker = .ok (some e) → u.qualifies s e ≠ .ok true)
    {f : Field} (hf : f ∈ (d :: found).flatMap Declaration.fields)
    (hnested : ∃ e, u.Denotes f.type e ∧ u.Qualifying s e) :
    f.type.name? ≠ some s.dispatcherMarker := by
  obtain ⟨htests, -⟩ := (gather_eq_ok_iff_of_found hfound).1 hn
  obtain ⟨b, hb⟩ := htests f hf
  have hholds := liftDeclarations_eq_ok.1 hb
  obtain rfl := (denotes_qualifying_iff_of_ok distinct hholds).1 hnested
  obtain ⟨e, hdenotes, -⟩ := hnested
  rw [holdsContainer_of_denotes hdenotes] at hholds
  obtain ⟨name, hname, hlookup⟩ := hdenotes
  rw [hname]
  rintro ⟨⟩
  exact hmarker e hlookup hholds

open Classical in
theorem rendered_wiring (u : CompilationUnit) (s : Settings) (plans : List ContainerPlan)
    (h : u.plan s = .ok plans) (hnames : ∀ name ∈ u.printedNames s, OneLine name)
    (p : ContainerPlan) (hp : p ∈ plans) (wired : p.wiring.isSome = true) :
    ∃ d ∈ u.own, ∃ found, d.name = p.container ∧ u.transitiveSupertypes d = .ok found ∧
      let fields := OwnedField.ofDeclarations (d :: found)
      let dispatched := fields.filter fun f => f.field.type.name? = some s.dispatcherMarker
      let nested := fields.filter fun f => ∃ e, u.Denotes f.field.type e ∧ u.Qualifying s e
      ∃ before after dispatcherLines nestedLines statics readings,
        linesOf (s.renderPlans plans) =
          before ++ s.classLines d.name (dispatcherLines ++ nestedLines)
            ((dispatched ++ nested).map fun f => s.forwardLine f.field.name) statics ++ after ∧
        (∀ rs, List.Forall₂ (Reads d.name (s.spaces 1 ++ "final ") s.dispatcherMarker)
          dispatcherLines rs ↔ rs = readings) ∧
        (∀ rs, List.Forall₂ (Reads d.name (s.spaces 1 ++ "static final ") s.actionNameType)
          statics rs ↔ rs = readings) ∧
        List.Forall₂ (fun f line => s.CreatesDispatcher d.name f.field line) dispatched
          dispatcherLines ∧
        List.Forall₂ (fun f line => s.CreatesNested f.field line) nested nestedLines ∧
        ((∀ e, u.lookup s.dispatcherMarker = .ok (some e) → u.qualifies s e ≠ .ok true) →
          (dispatched ++ nested).Subperm fields) := by
  obtain ⟨c, hc⟩ := Option.isSome_iff_exists.1 wired
  have distinct := (plan_eq_ok_iff.1 h).1
  obtain ⟨d, hd, -, hplan⟩ := exists_planned_of_mem h hp
  obtain ⟨found, hfound, hplanned⟩ := plannedAs_of_planFor distinct hplan
  have w := hplanned.wiring c hc
  refine ⟨d, hd, found, hplanned.container.symm, hfound, ?_⟩
  intro fields dispatched nested
  have hdispatched : List.Forall₂ (fun f e => ActionEntry.Describes d.name f.field e) dispatched
      c.dispatchers := w.dispatchers ▸ hplanned.entries_owned
  have hnested : List.Forall₂ (fun f e => NestedEntry.Describes f.field e) nested c.nested :=
    w.nested_owned
  have hkeys : ∀ e ∈ c.dispatchers, e.key = d.name ++ "-" ++ e.name := by
    intro e he
    obtain ⟨f, -, hdescribes⟩ := exists_of_mem_right hdispatched he
    rw [hdescribes.key, hdescribes.name]
  have hforwarded : c.forwarded = (dispatched ++ nested).map fun f => f.field.name := by
    rw [WiringSubclass.forwarded, List.map_append,
      map_eq_map_of_forall₂ hdispatched fun f e hdescribes => hdescribes.name,
      map_eq_map_of_forall₂ hnested fun f e hdescribes => hdescribes.name]
  obtain ⟨before, after, htext⟩ := s.exists_linesOf_around hp hc
    (oneLine_texts_of_plan h hnames) w.className w.baseName hplanned.className
  rw [w.dispatcherType, hplanned.nameType, ← w.dispatchers, hforwarded, List.map_map] at htext
  refine ⟨before, after, s.dispatcherLines s.dispatcherMarker c.dispatchers, s.nestedLines c.nested,
    s.nameLines s.actionNameType c.dispatchers, c.dispatchers.map ActionEntry.reading, htext,
    ActionEntry.forall₂_reads_iff hkeys, ActionEntry.forall₂_reads_iff hkeys, ?_, ?_, ?_⟩
  · have hmarked : ∀ f ∈ dispatched, f.field.type.name? = some s.dispatcherMarker := by
      intro f hf
      simpa using (List.mem_filter.1 hf).2
    rw [Settings.dispatcherLines, List.forall₂_map_right_iff]
    refine ((List.forall₂_and_left _ _).2 ⟨hmarked, hdispatched⟩).imp ?_
    rintro f e ⟨hname, hdescribes⟩
    exact s.createsDispatcher_of_describes hname hdescribes
  · rw [Settings.nestedLines, List.forall₂_map_right_iff]
    exact hnested.imp fun f e hdescribes => s.createsNested_of_describes hdescribes
  · intro hmarker
    apply subperm_of_filters
    intro f hf hnested
    have hfield : f.field ∈ (d :: found).flatMap Declaration.fields := by
      rw [← OwnedField.map_field_ofDeclarations]
      exact List.mem_map_of_mem hf
    have hentries := nestedEntries_of_planFor hplan hc
    have hother := not_dispatched_of_nested distinct hfound hentries hmarker hfield
      (of_decide_eq_true hnested)
    exact decide_eq_false hother

open Classical in
theorem rendered_wiring_sample :
    ∃ d ∈ sampleUnit.own, ∃ found, d.name = "App" ∧ sampleUnit.transitiveSupertypes d = .ok found ∧
      let s : Settings := {}
      let fields := OwnedField.ofDeclarations (d :: found)
      let dispatched := fields.filter fun f => f.field.type.name? = some "ActionDispatcher"
      let nested := fields.filter fun f => ∃ e, sampleUnit.Denotes f.field.type e ∧
        sampleUnit.Qualifying s e
      (∃ before after fieldLines statics, linesOf (s.renderPlans [sampleAppPlan, sampleChildPlan]) =
        before ++ s.classLines "App" fieldLines
          ((dispatched ++ nested).map fun f => s.forwardLine f.field.name) statics ++ after) ∧
      (dispatched ++ nested).Subperm fields := by
  have hnames : ∀ name ∈ sampleUnit.printedNames {}, OneLine name := by decide
  have hunknown : sampleUnit.lookup ({} : Settings).dispatcherMarker = .ok none := rfl
  obtain ⟨d, hd, found, hname, hfound, before, after, dispatcherLines, nestedLines, statics, readings,
    htext, -, -, -, -, hwired⟩ :=
    rendered_wiring sampleUnit {} _ plan_sampleUnit hnames sampleAppPlan List.mem_cons_self rfl
  rw [hname] at htext
  refine ⟨d, hd, found, hname, hfound, ⟨before, after, _, statics, htext⟩, hwired ?_⟩
  intro e he
  rw [hunknown] at he
  cases he

end CompilationUnit

end ActionWiring
