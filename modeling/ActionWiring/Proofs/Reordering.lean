import Mathlib.Data.List.Perm.Basic
import ActionWiring.Proofs.PlanContents

namespace ActionWiring

namespace Walk

variable {u v : CompilationUnit} {root : String}

theorem next_congr (same : ∀ name, u.lookup name = v.lookup name) (w : Walk) :
    next u root w = next v root w := by
  simp only [next, same]

theorem run_congr (same : ∀ name, u.lookup name = v.lookup name) (w : Walk) :
    run u root w = run v root w := by
  fun_induction run u root w with
  | case1 w found hn =>
      rw [next_congr same] at hn
      exact (run_of_finished hn).symm
  | case2 w cause hn =>
      rw [next_congr same] at hn
      exact (run_of_failed hn).symm
  | case3 w w' hn ih =>
      rw [next_congr same] at hn
      rw [ih, run_of_step hn]

end Walk

section

variable {ι ε α : Type} {chosen : ι → Except ε Bool} {result : ι → Except ε α}

theorem select_append_eq_ok {is js : List ι} {rs : List α} :
    select chosen result (is ++ js) = .ok rs ↔
      ∃ first rest, select chosen result is = .ok first ∧ select chosen result js = .ok rest ∧
        first ++ rest = rs := by
  induction is generalizing rs with
  | nil => simp [select]
  | cons i is ih =>
      simp only [List.cons_append, select_cons_eq_ok, ih]
      constructor
      · rintro (⟨hb, first, rest, hfirst, hrest, rfl⟩ |
          ⟨hb, r, _, hr, ⟨first, rest, hfirst, hrest, rfl⟩, rfl⟩)
        · exact ⟨first, rest, .inl ⟨hb, hfirst⟩, hrest, rfl⟩
        · exact ⟨r :: first, rest, .inr ⟨hb, r, first, hr, hfirst, rfl⟩, hrest, rfl⟩
      · rintro ⟨first, rest, ⟨hb, hfirst⟩ | ⟨hb, r, first', hr, hfirst, rfl⟩, hrest, rfl⟩
        · exact .inl ⟨hb, first, rest, hfirst, hrest, rfl⟩
        · exact .inr ⟨hb, r, _, hr, ⟨first', rest, hfirst, hrest, rfl⟩, rfl⟩

theorem select_perm {is js : List ι} {rs : List α} (hperm : is.Perm js)
    (h : select chosen result is = .ok rs) :
    ∃ rs', select chosen result js = .ok rs' ∧ rs.Perm rs' := by
  obtain ⟨htests, hresults⟩ := select_eq_ok_iff.1 h
  obtain ⟨rs', hrs', hmoved⟩ :=
    List.perm_comp_forall₂ (hperm.filter (accepts chosen)).symm hresults
  refine ⟨rs', select_eq_ok_iff.2 ⟨fun j hj => htests j (hperm.mem_iff.2 hj), hrs'⟩, hmoved.symm⟩

end

namespace CompilationUnit

variable {u v : CompilationUnit} {s : Settings} {d : Declaration}

theorem lookup_eq_of_perm (distinct : u.names.Nodup) (hperm : u.visible.Perm v.visible)
    (name : String) : u.lookup name = v.lookup name := by
  have hnames : u.names.Perm v.names := hperm.map Declaration.name
  have distinct' : v.names.Nodup := hnames.nodup_iff.1 distinct
  obtain ⟨found, h⟩ := lookup_ok distinct name
  rw [h]
  symm
  cases found with
  | none =>
      rw [lookup_eq_none_iff distinct] at h
      exact (lookup_eq_none_iff distinct').2 fun hmem => h (hnames.mem_iff.2 hmem)
  | some d =>
      obtain ⟨hmem, hname⟩ := (lookup_eq_some_iff distinct).1 h
      exact (lookup_eq_some_iff distinct').2 ⟨hperm.mem_iff.1 hmem, hname⟩

section

variable (same : ∀ name, u.lookup name = v.lookup name)

include same

theorem transitiveSupertypes_congr (d : Declaration) :
    u.transitiveSupertypes d = v.transitiveSupertypes d :=
  Walk.run_congr same _

theorem qualifies_congr (s : Settings) (d : Declaration) : u.qualifies s d = v.qualifies s d := by
  rw [qualifies, qualifies, transitiveSupertypes_congr same]

theorem holdsContainer_congr (s : Settings) (type : DartType) :
    u.holdsContainer s type = v.holdsContainer s type := by
  simp only [holdsContainer, same, qualifies_congr same]

theorem gather_congr {α : Type} (d : Declaration) (chosen : Field → Except PlanError Bool)
    (result : Declaration → Field → Except PlanError α) :
    u.gather d chosen result = v.gather d chosen result := by
  rw [gather, gather, fieldsOf, fieldsOf, transitiveSupertypes_congr same]

theorem planFor_congr (s : Settings) (d : Declaration) : u.planFor s d = v.planFor s d := by
  have hentries : u.actionEntries s d = v.actionEntries s d := gather_congr same d _ _
  have hnested : u.nestedEntries s d = v.nestedEntries s d := by
    simp only [nestedEntries, holdsContainer_congr same, gather_congr same]
  simp only [planFor, wiringSubclass, hentries, hnested]

theorem planAll_congr (s : Settings) (ds : List Declaration) : u.planAll s ds = v.planAll s ds := by
  rw [planAll, planAll, funext (planFor_congr same s), funext (qualifies_congr same s)]

end

theorem plan_perm (hown : u.own.Perm v.own) (hlibrary : u.library.Perm v.library)
    {plans : List ContainerPlan} (h : u.plan s = .ok plans) :
    ∃ plans', v.plan s = .ok plans' ∧ plans.Perm plans' := by
  obtain ⟨distinct, hall⟩ := plan_eq_ok_iff.1 h
  have hvisible : u.visible.Perm v.visible := hown.append hlibrary
  rw [planAll_congr (lookup_eq_of_perm distinct hvisible)] at hall
  obtain ⟨plans', hall', hmoved⟩ := select_perm hown hall
  have distinct' : v.names.Nodup := (hvisible.map Declaration.name).nodup_iff.1 distinct
  exact ⟨plans', plan_eq_ok_iff.2 ⟨distinct', hall'⟩, hmoved⟩

inductive OwnPart (u : CompilationUnit) (s : Settings) (d : Declaration) :
    List ContainerPlan → Prop
  | refused : u.qualifies s d = .ok false → OwnPart u s d []
  | planned (p : ContainerPlan) : u.qualifies s d = .ok true → u.planFor s d = .ok p →
      p.container = d.name → OwnPart u s d [p]

theorem plan_moved {before after : List Declaration} (hu : u.own = before ++ d :: after)
    (hv : v.own = before ++ after) (hlibrary : v.library.Perm (d :: u.library))
    {plans : List ContainerPlan} (h : u.plan s = .ok plans) :
    ∃ first mine rest, plans = first ++ mine ++ rest ∧ u.OwnPart s d mine ∧
      v.plan s = .ok (first ++ rest) := by
  obtain ⟨distinct, hall⟩ := plan_eq_ok_iff.1 h
  have hvisible : u.visible.Perm v.visible := by
    rw [visible, visible, hu, hv]
    have hmiddle : (before ++ d :: after ++ u.library).Perm (d :: (before ++ after ++ u.library)) :=
      List.perm_middle.append_right u.library
    have hback : (d :: (before ++ after ++ u.library)).Perm (before ++ after ++ d :: u.library) :=
      List.perm_middle.symm
    exact hmiddle.trans (hback.trans (hlibrary.symm.append_left _))
  have distinct' : v.names.Nodup := (hvisible.map Declaration.name).nodup_iff.1 distinct
  have same := lookup_eq_of_perm distinct hvisible
  have hplan : ∀ first rest, u.planAll s before = .ok first → u.planAll s after = .ok rest →
      v.plan s = .ok (first ++ rest) := by
    intro first rest hfirst hrest
    rw [planAll_congr same] at hfirst hrest
    refine plan_eq_ok_iff.2 ⟨distinct', ?_⟩
    rw [hv]
    exact select_append_eq_ok.2 ⟨first, rest, hfirst, hrest, rfl⟩
  rw [hu] at hall
  obtain ⟨first, tail, hfirst, htail, rfl⟩ := select_append_eq_ok.1 hall
  rcases select_cons_eq_ok.1 htail with ⟨hb, hrest⟩ | ⟨hb, p, rest, hp, hrest, rfl⟩
  · refine ⟨first, [], tail, by simp, .refused (liftDeclarations_eq_ok.1 hb), ?_⟩
    exact hplan first tail hfirst hrest
  · refine ⟨first, [p], rest, by simp, ?_, hplan first rest hfirst hrest⟩
    exact .planned p (liftDeclarations_eq_ok.1 hb) hp (container_of_planFor hp)

theorem plan_reordered (u v : CompilationUnit) (s : Settings) :
    (u.own.Perm v.own → u.library.Perm v.library →
      ((∃ plans, u.plan s = .ok plans) ↔ ∃ plans, v.plan s = .ok plans) ∧
      ∀ plans plans', u.plan s = .ok plans → v.plan s = .ok plans' →
        plans.Perm plans' ∧
          (plans'.map ContainerPlan.container).Sublist (v.own.map Declaration.name)) ∧
    ∀ before d after, u.own = before ++ d :: after → v.own = before ++ after →
      v.library.Perm (d :: u.library) → ∀ plans, u.plan s = .ok plans →
        ∃ first mine rest, plans = first ++ mine ++ rest ∧ u.OwnPart s d mine ∧
          v.plan s = .ok (first ++ rest) ∧ ∀ p ∈ first ++ rest, p.container ≠ d.name := by
  refine ⟨fun hown hlibrary => ⟨⟨?_, ?_⟩, ?_⟩, ?_⟩
  · rintro ⟨plans, h⟩
    obtain ⟨plans', h', -⟩ := plan_perm hown hlibrary h
    exact ⟨plans', h'⟩
  · rintro ⟨plans, h⟩
    obtain ⟨plans', h', -⟩ := plan_perm hown.symm hlibrary.symm h
    exact ⟨plans', h'⟩
  · intro plans plans' h h'
    obtain ⟨plans'', h'', hmoved⟩ := plan_perm hown hlibrary h
    rw [h', Except.ok.injEq] at h''
    subst h''
    exact ⟨hmoved, container_sublist h'⟩
  · intro before d after hu hv hlibrary plans h
    obtain ⟨first, mine, rest, hplans, hmine, h'⟩ := plan_moved hu hv hlibrary h
    refine ⟨first, mine, rest, hplans, hmine, h', fun p hp hname => ?_⟩
    have hmem : d.name ∈ v.own.map Declaration.name :=
      (container_sublist h').mem (hname ▸ List.mem_map_of_mem hp)
    have hnodup : (u.own.map Declaration.name).Nodup := own_distinct (plan_eq_ok_iff.1 h).1
    rw [hu, List.map_append, List.map_cons, nodup_insert_iff, ← List.map_append, ← hv] at hnodup
    exact hnodup.2 hmem

def sampleReordered : CompilationUnit :=
  ofLists [sampleChild, sampleApp] [sampleMarker, sampleLeft, sampleRight]

def sampleMoved : CompilationUnit :=
  ofLists [sampleChild] [sampleApp, sampleLeft, sampleRight, sampleMarker]

theorem plan_reordered_sample :
    (sampleUnit.own.Perm sampleReordered.own ∧ sampleUnit.library.Perm sampleReordered.library ∧
      ∃ plans, sampleReordered.plan {} = .ok plans ∧
        [sampleAppPlan, sampleChildPlan].Perm plans ∧
        plans.map ContainerPlan.container = ["Child", "App"]) ∧
    sampleMoved.library.Perm (sampleApp :: sampleUnit.library) ∧
      sampleMoved.plan {} = .ok [sampleChildPlan] := by
  have hown : sampleUnit.own.Perm sampleReordered.own := List.Perm.swap _ _ _
  have hlibrary : sampleUnit.library.Perm sampleReordered.library :=
    (List.perm_append_singleton sampleMarker [sampleLeft, sampleRight])
  obtain ⟨hok, horder⟩ := (plan_reordered sampleUnit sampleReordered {}).1 hown hlibrary
  obtain ⟨plans, h⟩ := hok.1 ⟨_, plan_sampleUnit⟩
  obtain ⟨hmoved, hsublist⟩ := horder _ _ plan_sampleUnit h
  have hcontainers : plans.map ContainerPlan.container = ["Child", "App"] := by
    refine hsublist.eq_of_length ?_
    rw [List.length_map, ← hmoved.length_eq]
    rfl
  refine ⟨⟨hown, hlibrary, plans, h, hmoved, hcontainers⟩, .refl _, ?_⟩
  obtain ⟨first, mine, rest, hplans, hmine, hplan, hothers⟩ :=
    (plan_reordered sampleUnit sampleMoved {}).2 [] sampleApp [sampleChild] rfl rfl (.refl _) _
      plan_sampleUnit
  cases first with
  | cons p first =>
      obtain ⟨rfl, -⟩ := List.cons.inj hplans
      exact absurd rfl (hothers _ List.mem_cons_self)
  | nil =>
      cases hmine with
      | refused _ =>
          cases hplans
          exact absurd rfl (hothers _ List.mem_cons_self)
      | planned p _ _ _ =>
          cases hplans
          exact hplan

end CompilationUnit

end ActionWiring
