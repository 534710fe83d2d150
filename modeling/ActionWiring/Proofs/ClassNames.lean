import Mathlib.Data.List.Flatten
import Mathlib.Data.List.Infix
import Mathlib.Data.List.Nodup
import ActionWiring.Proofs.PlanContents

namespace ActionWiring

def Naming.ClearOfNames (head : String) : Prop :=
  ∀ start, beginsWith start head = true → start ≠ head →
    ¬ beginsWith head (namesClass start) = true

theorem Naming.clearOfNames_iff {head : String} :
    ClearOfNames head ↔ ∀ start ∈ head.toList.inits, String.ofList start ≠ head →
      ¬ beginsWith head (namesClass (String.ofList start)) = true := by
  have hbegins : ∀ start : String, beginsWith start head = true ↔ start.toList ∈ head.toList.inits := by
    intro start
    rw [beginsWith, List.isPrefixOf_iff_prefix, List.mem_inits]
  simp only [ClearOfNames, hbegins]
  constructor
  · intro h start hstart
    exact h _ (by rwa [String.toList_ofList])
  · intro h start hstart
    simpa only [String.ofList_toList] using h start.toList hstart

instance (head : String) : Decidable (Naming.ClearOfNames head) :=
  decidable_of_iff _ Naming.clearOfNames_iff.symm

example : ¬ Naming.ClearOfNames "Na" := by decide

namespace Settings

variable {s : Settings} {container other : String}

def classNamesOf (s : Settings) (container : String) : List String :=
  [s.subclassName container, Naming.namesClass container]

theorem subclassName_ne (hother : ¬ s.isGenerated other = true) (container : String) :
    s.subclassName container ≠ other := by
  rintro rfl
  exact hother (s.isGenerated_subclassName container)

-- Where the two names agree, the prefix would end inside of the other container's name, which is not
-- generated, or reach beyond it.
theorem subclassName_ne_namesClass (clear : Naming.ClearOfNames s.generatedPrefix)
    (hother : ¬ s.isGenerated other = true) (container : String) :
    s.subclassName container ≠ Naming.namesClass other := by
  intro h
  have hchars := congrArg String.toList h
  rw [subclassName, Naming.namesClass, String.toList_append, String.toList_append] at hchars
  rcases List.append_eq_append_iff.1 hchars with ⟨middle, hinside, -⟩ | ⟨middle, hbeyond, -⟩
  · exact hother (Naming.beginsWith_iff.2 ⟨middle, hinside⟩)
  · have hne : other ≠ s.generatedPrefix := by
      rintro rfl
      exact hother (Naming.beginsWith_iff.2 ⟨[], (List.append_nil _).symm⟩)
    have hnames : s.isGenerated (Naming.namesClass other) = true :=
      h ▸ s.isGenerated_subclassName container
    exact clear other (Naming.beginsWith_iff.2 ⟨middle, hbeyond⟩) hne hnames

theorem nodup_classNamesOf (clear : Naming.ClearOfNames s.generatedPrefix)
    {containers : List String} (distinct : containers.Nodup)
    (plain : ∀ container ∈ containers, ¬ s.isGenerated container = true) :
    (containers.flatMap s.classNamesOf).Nodup := by
  have happart : ∀ container, ∀ other ∈ containers,
      s.subclassName container ≠ Naming.namesClass other :=
    fun container other hother => subclassName_ne_namesClass clear (plain other hother) container
  rw [List.nodup_flatMap]
  constructor
  · intro container hcontainer
    simp [classNamesOf, happart container container hcontainer]
  · refine distinct.imp_of_mem fun {container other} hcontainer hother hne => ?_
    have hsubclass : s.subclassName other ≠ s.subclassName container :=
      mt (String.append_right_inj _).1 hne.symm
    have hnames : Naming.namesClass other ≠ Naming.namesClass container :=
      mt (String.append_left_inj _).1 hne.symm
    simp [Function.onFun, classNamesOf, hsubclass, hnames, (happart container other hother).symm,
      happart other container hcontainer]

end Settings

def ContainerPlan.classNames (p : ContainerPlan) : List String :=
  (p.wiring.map WiringSubclass.className).toList ++ [p.names.className]

namespace CompilationUnit

variable {u : CompilationUnit} {s : Settings} {d : Declaration} {found : List Declaration}

theorem PlannedAs.className_eq {p : ContainerPlan} (h : u.PlannedAs s d found p)
    {c : WiringSubclass} (hc : p.wiring = some c) : c.className = s.subclassName p.container :=
  h.container ▸ (h.wiring c hc).className

theorem PlannedAs.classNames_sublist {p : ContainerPlan} (h : u.PlannedAs s d found p) :
    p.classNames.Sublist (s.classNamesOf p.container) := by
  have hnames : p.names.className = Naming.namesClass p.container := h.container ▸ h.className
  rw [ContainerPlan.classNames, hnames]
  cases hw : p.wiring with
  | none => exact List.sublist_cons_self _ _
  | some c =>
      rw [Option.map_some, h.className_eq hw]
      exact List.Sublist.refl _

theorem not_isGenerated_of_qualifies (h : u.qualifies s d = .ok true)
    (shown : d.shownName = d.name) : ¬ s.isGenerated d.name = true := by
  intro hgenerated
  have hrefused : s.isCandidate d = false := by
    rw [Settings.isCandidate, shown, hgenerated, Bool.not_true, Bool.and_false]
  rw [qualifies, hrefused] at h
  cases h

theorem plan_classNames (u : CompilationUnit) (s : Settings) (plans : List ContainerPlan)
    (h : u.plan s = .ok plans)
    (shown : ∀ d ∈ u.own, u.qualifies s d = .ok true → d.shownName = d.name)
    (clear : Naming.ClearOfNames s.generatedPrefix) :
    (plans.flatMap ContainerPlan.classNames).Nodup ∧
      ∀ p ∈ plans, ∀ c, p.wiring = some c →
        s.isGenerated c.className = true ∧
          ∀ d, u.qualifies s d = .ok true → d.shownName = d.name → c.className ≠ d.name := by
  constructor
  · have hplain : ∀ container ∈ plans.map ContainerPlan.container,
        ¬ s.isGenerated container = true := by
      refine List.forall_mem_map.2 fun p hp => ?_
      obtain ⟨d, hd, hqualifies, found, -, hplanned⟩ := exists_plannedAs_of_mem h hp
      rw [hplanned.container]
      exact not_isGenerated_of_qualifies hqualifies (shown d hd hqualifies)
    have hsublist : (plans.flatMap ContainerPlan.classNames).Sublist
        ((plans.map ContainerPlan.container).flatMap s.classNamesOf) := by
      rw [List.flatMap_map]
      refine List.Sublist.flatMap_right plans fun p hp => ?_
      obtain ⟨d, -, -, found, -, hplanned⟩ := exists_plannedAs_of_mem h hp
      exact hplanned.classNames_sublist
    exact (Settings.nodup_classNamesOf clear (containers_distinct h) hplain).sublist hsublist
  · intro p hp c hc
    obtain ⟨d, -, -, found, -, hplanned⟩ := exists_plannedAs_of_mem h hp
    rw [hplanned.className_eq hc]
    exact ⟨s.isGenerated_subclassName _,
      fun e he hshown => Settings.subclassName_ne (not_isGenerated_of_qualifies he hshown) _⟩

theorem plan_classNames_sample :
    Naming.ClearOfNames ({} : Settings).generatedPrefix ∧
      [sampleAppPlan, sampleChildPlan].flatMap ContainerPlan.classNames =
        ["_$App", "AppNames", "ChildNames"] ∧
      ([sampleAppPlan, sampleChildPlan].flatMap ContainerPlan.classNames).Nodup ∧
      ({} : Settings).isGenerated "_$App" = true ∧ "_$App" ≠ sampleChild.name := by
  have clear : Naming.ClearOfNames ({} : Settings).generatedPrefix := by decide
  have shown : ∀ d ∈ sampleUnit.own, d.shownName = d.name := by decide
  obtain ⟨hnodup, hwired⟩ :=
    plan_classNames sampleUnit {} _ plan_sampleUnit (fun d hd _ => shown d hd) clear
  obtain ⟨hgenerated, hother⟩ := hwired sampleAppPlan List.mem_cons_self _ rfl
  exact ⟨clear, rfl, hnodup, hgenerated, hother sampleChild qualifies_sampleChild rfl⟩

end CompilationUnit

end ActionWiring
