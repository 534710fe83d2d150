import ActionWiring.Proofs.FieldSelection
import ActionWiring.Proofs.Planning
import ActionWiring.Proofs.Qualifying

namespace ActionWiring

structure ActionEntry.Describes (container : String) (f : Field) (e : ActionEntry) : Prop where
  name : e.name = f.name
  payload : ∃ texts, f.type.argumentTexts = .ok texts ∧
    e.payload = if texts = [] then "dynamic" else String.intercalate "," texts
  key : e.key = container ++ "-" ++ f.name

structure NestedEntry.Describes (f : Field) (e : NestedEntry) : Prop where
  name : e.name = f.name
  typeName : f.type.render = .ok e.typeName

theorem ActionEntry.Describes.key_eq {container : String} {f : Field} {e : ActionEntry}
    (h : e.Describes container f) : e.key = container ++ "-" ++ e.name := by
  rw [h.key, h.name]

theorem ActionEntry.describes_of_ofField {container : String} {f : Field} {e : ActionEntry}
    (h : ActionEntry.ofField container f = .ok e) : e.Describes container f := by
  obtain ⟨payload, hp, rfl⟩ := ActionEntry.ofField_eq_ok_iff.1 h
  obtain ⟨texts, ht, rfl⟩ := DartType.payload_eq_ok_iff.1 hp
  exact ⟨rfl, ⟨texts, ht, rfl⟩, rfl⟩

theorem NestedEntry.describes_of_ofField {f : Field} {e : NestedEntry}
    (h : NestedEntry.ofField f = .ok e) : e.Describes f := by
  obtain ⟨typeName, ht, rfl⟩ := NestedEntry.ofField_eq_ok_iff.1 h
  exact ⟨rfl, ht⟩

namespace CompilationUnit

variable {u : CompilationUnit} {s : Settings} {d : Declaration} {found : List Declaration}

open Classical in
structure WiredBy (u : CompilationUnit) (s : Settings) (d : Declaration)
    (found : List Declaration) (entries : List ActionEntry) (c : WiringSubclass) : Prop where
  className : c.className = s.generatedPrefix ++ d.name
  baseName : c.baseName = d.name
  dispatcherType : c.dispatcherType = s.dispatcherMarker
  dispatchers : c.dispatchers = entries
  nested : List.Forall₂ (fun f e => NestedEntry.Describes f e)
    (((d :: found).flatMap Declaration.fields).filter fun f =>
      ∃ e, u.Denotes f.type e ∧ u.Qualifying s e) c.nested

structure PlannedAs (u : CompilationUnit) (s : Settings) (d : Declaration)
    (found : List Declaration) (p : ContainerPlan) : Prop where
  container : p.container = d.name
  className : p.names.className = d.name ++ "Names"
  nameType : p.names.nameType = s.actionNameType
  entries : List.Forall₂ (fun f e => ActionEntry.Describes d.name f e)
    (((d :: found).flatMap Declaration.fields).filter fun f =>
      f.type.name? = some s.dispatcherMarker) p.names.entries
  wiring_isSome : p.wiring.isSome = true ↔ 2 ≤ d.constructors.length
  wiring : ∀ c, p.wiring = some c → u.WiredBy s d found p.names.entries c

theorem actionEntries_describe (hfound : u.transitiveSupertypes d = .ok found)
    {entries : List ActionEntry} (h : u.actionEntries s d = .ok entries) :
    List.Forall₂ (fun f e => ActionEntry.Describes d.name f e)
      (((d :: found).flatMap Declaration.fields).filter fun f =>
        f.type.name? = some s.dispatcherMarker) entries := by
  obtain ⟨htests, hentries⟩ := (gather_eq_ok_iff_of_found hfound).1 h
  rw [filter_accepts (P := fun f : Field => f.type.name? = some s.dispatcherMarker) htests]
    at hentries
  · exact hentries.imp fun f e => ActionEntry.describes_of_ofField
  · rintro f _ ⟨⟩
    exact Settings.isDispatcherType_iff.symm

open Classical in
theorem nestedEntries_describe (distinct : u.names.Nodup)
    (hfound : u.transitiveSupertypes d = .ok found) {nested : List NestedEntry}
    (h : u.nestedEntries s d = .ok nested) :
    List.Forall₂ (fun f e => NestedEntry.Describes f e)
      (((d :: found).flatMap Declaration.fields).filter fun f =>
        ∃ e, u.Denotes f.type e ∧ u.Qualifying s e) nested := by
  obtain ⟨htests, hnested⟩ := (gather_eq_ok_iff_of_found hfound).1 h
  rw [filter_accepts (P := fun f : Field => ∃ e, u.Denotes f.type e ∧ u.Qualifying s e) htests]
    at hnested
  · exact hnested.imp fun f e => NestedEntry.describes_of_ofField
  · intro f b hb
    exact denotes_qualifying_iff_of_ok distinct (liftDeclarations_eq_ok.1 hb)

theorem plannedAs_of_planFor (distinct : u.names.Nodup) {p : ContainerPlan}
    (h : u.planFor s d = .ok p) :
    ∃ found, u.transitiveSupertypes d = .ok found ∧ u.PlannedAs s d found p := by
  obtain ⟨entries, wiring, he, hw, rfl⟩ := planFor_eq_ok_iff.1 h
  obtain ⟨found, hfound, -⟩ := gather_eq_ok_iff.1 he
  have hentries := actionEntries_describe hfound he
  refine ⟨found, hfound, ?_⟩
  by_cases many : 1 < d.constructors.length
  · obtain ⟨nested, hn, rfl⟩ := (wiringSubclass_eq_ok_iff many).1 hw
    refine ⟨rfl, rfl, rfl, hentries, iff_of_true rfl many, ?_⟩
    rintro c ⟨⟩
    exact ⟨rfl, rfl, rfl, rfl, nestedEntries_describe distinct hfound hn⟩
  · rw [wiringSubclass_of_few (Nat.not_lt.1 many)] at hw
    cases hw
    refine ⟨rfl, rfl, rfl, hentries, iff_of_false Bool.false_ne_true many, ?_⟩
    rintro c ⟨⟩

open Classical in
theorem planAll_eq_ok {ds : List Declaration} {plans : List ContainerPlan}
    (h : u.planAll s ds = .ok plans) :
    List.Forall₂ (fun d p => u.planFor s d = .ok p) (ds.filter fun d => u.Qualifying s d)
      plans := by
  obtain ⟨htests, hplans⟩ := select_eq_ok_iff.1 h
  rwa [filter_accepts (P := fun d => u.Qualifying s d) htests] at hplans
  intro d b hb
  exact qualifying_iff_of_ok (liftDeclarations_eq_ok.1 hb)

theorem container_of_planFor {p : ContainerPlan} (h : u.planFor s d = .ok p) :
    p.container = d.name := by
  obtain ⟨_, _, _, _, rfl⟩ := planFor_eq_ok_iff.1 h
  rfl

theorem map_container {ds : List Declaration} {plans : List ContainerPlan}
    (h : List.Forall₂ (fun d p => u.planFor s d = .ok p) ds plans) :
    plans.map ContainerPlan.container = ds.map Declaration.name :=
  map_eq_map_of_forall₂ h fun _ _ => container_of_planFor

theorem container_sublist {plans : List ContainerPlan} (h : u.plan s = .ok plans) :
    (plans.map ContainerPlan.container).Sublist (u.own.map Declaration.name) := by
  rw [map_container (planAll_eq_ok (plan_eq_ok_iff.1 h).2)]
  exact List.filter_sublist.map _

theorem own_distinct (distinct : u.names.Nodup) : (u.own.map Declaration.name).Nodup := by
  rw [names, visible, List.map_append] at distinct
  exact (List.nodup_append.1 distinct).1

theorem containers_distinct {plans : List ContainerPlan} (h : u.plan s = .ok plans) :
    (plans.map ContainerPlan.container).Nodup :=
  (own_distinct (plan_eq_ok_iff.1 h).1).sublist (container_sublist h)

theorem exists_planned_of_mem {plans : List ContainerPlan} (h : u.plan s = .ok plans)
    {p : ContainerPlan} (hp : p ∈ plans) :
    ∃ d ∈ u.own, u.qualifies s d = .ok true ∧ u.planFor s d = .ok p := by
  obtain ⟨-, hplans⟩ := select_eq_ok_iff.1 (plan_eq_ok_iff.1 h).2
  obtain ⟨d, hd, hplan⟩ := exists_of_mem_right hplans hp
  obtain ⟨hown, haccepted⟩ := List.mem_filter.1 hd
  exact ⟨d, hown, liftDeclarations_eq_ok.1 (accepts_iff.1 haccepted), hplan⟩

theorem exists_plannedAs_of_mem {plans : List ContainerPlan} (h : u.plan s = .ok plans)
    {p : ContainerPlan} (hp : p ∈ plans) :
    ∃ d ∈ u.own, u.qualifies s d = .ok true ∧
      ∃ found, u.transitiveSupertypes d = .ok found ∧ u.PlannedAs s d found p := by
  obtain ⟨d, hd, hqualifies, hplan⟩ := exists_planned_of_mem h hp
  exact ⟨d, hd, hqualifies, plannedAs_of_planFor (plan_eq_ok_iff.1 h).1 hplan⟩

open Classical in
theorem plan_holds (u : CompilationUnit) (s : Settings) (plans : List ContainerPlan)
    (h : u.plan s = .ok plans) :
    List.Forall₂
        (fun d p => ∃ found, u.transitiveSupertypes d = .ok found ∧
          ((d :: found).map Declaration.name).Nodup ∧ u.PlannedAs s d found p)
        (u.own.filter fun d => u.Qualifying s d) plans ∧
      (plans.map ContainerPlan.container).Nodup := by
  obtain ⟨distinct, hall⟩ := plan_eq_ok_iff.1 h
  have hplans := planAll_eq_ok hall
  constructor
  · refine hplans.imp fun d p hp => ?_
    obtain ⟨found, hfound, hplanned⟩ := plannedAs_of_planFor distinct hp
    have l := listsAbove_of_ok hfound
    exact ⟨found, hfound, List.nodup_cons.2 ⟨l.foreign, l.distinct⟩, hplanned⟩
  · rw [map_container hplans]
    exact (own_distinct distinct).sublist (List.filter_sublist.map _)

def sampleApp : Declaration where
  name := "App"
  constructors := [{ name := "" }, { name := "_" }]
  fields :=
    [⟨"reset", .generic .parameterized "ActionDispatcher" [] [.named "int"]⟩,
      ⟨"child", .named "Child"⟩]
  supertypes := ["Left", "Right"]

def sampleChild : Declaration where
  name := "Child"
  supertypes := ["Right"]

def sampleLeft : Declaration where
  name := "Left"
  fields := [⟨"reset", .named "ActionDispatcher"⟩]
  supertypes := ["ReduxActions"]

def sampleRight : Declaration where
  name := "Right"
  supertypes := ["ReduxActions", "Left"]

def sampleMarker : Declaration where
  name := "ReduxActions"

def sampleUnit : CompilationUnit :=
  ofLists [sampleApp, sampleChild] [sampleLeft, sampleRight, sampleMarker]

def sampleAppPlan : ContainerPlan where
  container := "App"
  wiring :=
    some
      { className := "_$App"
        baseName := "App"
        dispatcherType := "ActionDispatcher"
        dispatchers := [⟨"reset", "int", "App-reset"⟩, ⟨"reset", "dynamic", "App-reset"⟩]
        nested := [⟨"child", "Child"⟩] }
  names :=
    { className := "AppNames"
      nameType := "ActionName"
      entries := [⟨"reset", "int", "App-reset"⟩, ⟨"reset", "dynamic", "App-reset"⟩] }

def sampleChildPlan : ContainerPlan where
  container := "Child"
  wiring := none
  names :=
    { className := "ChildNames"
      nameType := "ActionName"
      entries := [⟨"reset", "dynamic", "Child-reset"⟩] }

theorem transitiveSupertypes_sampleApp :
    sampleUnit.transitiveSupertypes sampleApp = .ok [sampleLeft, sampleMarker, sampleRight] :=
  transitiveSupertypes_eq_of_runWithin 20 rfl

theorem transitiveSupertypes_sampleChild :
    sampleUnit.transitiveSupertypes sampleChild = .ok [sampleRight, sampleMarker, sampleLeft] :=
  transitiveSupertypes_eq_of_runWithin 20 rfl

theorem qualifies_sampleChild : sampleUnit.qualifies {} sampleChild = .ok true := by
  rw [qualifies, transitiveSupertypes_sampleChild]
  rfl

theorem planFor_sampleApp : sampleUnit.planFor {} sampleApp = .ok sampleAppPlan := by
  have hnested : sampleUnit.nestedEntries {} sampleApp = .ok [⟨"child", "Child"⟩] := by
    refine gather_eq_ok_iff.2 ⟨_, transitiveSupertypes_sampleApp, ?_⟩
    refine select_cons_eq_ok.2 (.inl ⟨rfl, select_cons_eq_ok.2 (.inr ?_)⟩)
    exact ⟨liftDeclarations_eq_ok.2 qualifies_sampleChild, _, _, rfl, rfl, rfl⟩
  exact planFor_eq_ok_iff.2
    ⟨_, _, gather_eq_ok_iff.2 ⟨_, transitiveSupertypes_sampleApp, rfl⟩,
      (wiringSubclass_eq_ok_iff (by decide)).2 ⟨_, hnested, rfl⟩, rfl⟩

theorem plan_sampleUnit : sampleUnit.plan {} = .ok [sampleAppPlan, sampleChildPlan] := by
  have qapp : sampleUnit.qualifies {} sampleApp = .ok true := by
    rw [qualifies, transitiveSupertypes_sampleApp]
    rfl
  have pchild : sampleUnit.planFor {} sampleChild = .ok sampleChildPlan :=
    planFor_eq_ok_iff.2 ⟨_, _, gather_eq_ok_iff.2 ⟨_, transitiveSupertypes_sampleChild, rfl⟩,
      wiringSubclass_of_few (by decide), rfl⟩
  refine plan_eq_ok_iff.2 ⟨by decide, select_cons_eq_ok.2 (.inr ?_)⟩
  refine ⟨liftDeclarations_eq_ok.2 qapp, _, _, planFor_sampleApp, select_cons_eq_ok.2 (.inr ?_), rfl⟩
  exact ⟨liftDeclarations_eq_ok.2 qualifies_sampleChild, _, _, pchild, rfl, rfl⟩

open Classical in
theorem plan_holds_sample :
    sampleUnit.plan {} = .ok [sampleAppPlan, sampleChildPlan] ∧
      (sampleUnit.own.filter fun d => sampleUnit.Qualifying {} d).length = 2 ∧
      ([sampleAppPlan, sampleChildPlan].map ContainerPlan.container).Nodup := by
  obtain ⟨hplans, hnodup⟩ := plan_holds sampleUnit {} _ plan_sampleUnit
  exact ⟨plan_sampleUnit, hplans.length_eq, hnodup⟩

end CompilationUnit

end ActionWiring
