import ActionWiring.Proofs.Additions
import ActionWiring.Proofs.PlanContents

namespace ActionWiring

namespace Walk

variable {u v : CompilationUnit} {root : String} {w w' : Walk}

theorem next_keeps
    (keeps : ∀ name d, u.lookup name = .ok (some d) → v.lookup name = .ok (some d)) {n : Next}
    (h : next u root w = n) (proceeds : ∀ cause, n ≠ .failed cause) : next v root w = n := by
  subst h
  obtain ⟨stack, seen, found⟩ := w
  rcases stack with _ | ⟨⟨owner, _ | ⟨name, pending⟩⟩, frames⟩
  · rfl
  · rfl
  · simp only [next] at proceeds ⊢
    by_cases hroot : name = root
    · rw [if_pos hroot, if_pos hroot]
    rw [if_neg hroot] at proceeds
    rw [if_neg hroot, if_neg hroot]
    by_cases hseen : name ∈ seen
    · rw [if_pos hseen, if_pos hseen]
    rw [if_neg hseen] at proceeds
    rw [if_neg hseen, if_neg hseen]
    cases hl : u.lookup name with
    | error cause => exact absurd (by rw [hl]) (proceeds cause)
    | ok e =>
        cases e with
        | none => exact absurd (by rw [hl]) (proceeds _)
        | some e => rw [keeps name e hl]

theorem run_keeps
    (keeps : ∀ name d, u.lookup name = .ok (some d) → v.lookup name = .ok (some d))
    {found : List Declaration} (h : run u root w = .ok found) : run v root w = .ok found := by
  -- Along the walk in `u`, which `v` repeats step by step since no step of it fails.
  fun_induction run u root w with
  | case1 w found' hn =>
      cases h
      exact run_of_finished (next_keeps keeps hn fun cause hc => by cases hc)
  | case2 w cause hn => cases h
  | case3 w w' hn ih =>
      rw [run_of_step (next_keeps keeps hn fun cause hc => by cases hc)]
      exact ih h

end Walk

namespace CompilationUnit

variable {u v : CompilationUnit} {s : Settings} {d : Declaration}

structure QuietExtension (s : Settings) (u v : CompilationUnit) : Prop where
  distinct : v.names.Nodup
  keeps : ∀ name d, u.lookup name = .ok (some d) → v.lookup name = .ok (some d)
  quiet : ∀ name d, u.lookup name = .ok none → v.lookup name = .ok (some d) →
    v.qualifies s d = .ok false

namespace QuietExtension

theorem transitiveSupertypes (x : QuietExtension s u v) {found : List Declaration}
    (h : u.transitiveSupertypes d = .ok found) : v.transitiveSupertypes d = .ok found :=
  Walk.run_keeps x.keeps h

theorem qualifies (x : QuietExtension s u v) {b : Bool} (h : u.qualifies s d = .ok b) :
    v.qualifies s d = .ok b := by
  unfold CompilationUnit.qualifies at h ⊢
  split
  · rename_i hc
    rw [if_pos hc] at h
    obtain ⟨found, hfound, hb⟩ := bind_pure_eq_ok.1 h
    exact bind_pure_eq_ok.2 ⟨found, x.transitiveSupertypes hfound, hb⟩
  · rename_i hc
    rwa [if_neg hc] at h

theorem holdsContainer (x : QuietExtension s u v) (distinct : u.names.Nodup) {type : DartType}
    {b : Bool} (h : u.holdsContainer s type = .ok b) : v.holdsContainer s type = .ok b := by
  by_cases hu : ∃ e, u.Denotes type e
  · obtain ⟨e, name, hname, hl⟩ := hu
    rw [holdsContainer_of_denotes ⟨name, hname, hl⟩] at h
    rw [holdsContainer_of_denotes ⟨name, hname, x.keeps name e hl⟩]
    exact x.qualifies h
  · rw [holdsContainer_of_not_denotes distinct (not_exists.1 hu)] at h
    cases h
    by_cases hv : ∃ e, v.Denotes type e
    · obtain ⟨e, name, hname, hl⟩ := hv
      rw [holdsContainer_of_denotes ⟨name, hname, hl⟩]
      obtain ⟨found, hfound⟩ := lookup_ok distinct name
      cases found with
      | none => exact x.quiet name e hfound hl
      | some e' => exact absurd ⟨e', name, hname, hfound⟩ hu
    · exact holdsContainer_of_not_denotes x.distinct (not_exists.1 hv)

theorem actionEntries (x : QuietExtension s u v) {entries : List ActionEntry}
    (h : u.actionEntries s d = .ok entries) : v.actionEntries s d = .ok entries := by
  obtain ⟨found, hfound, hs⟩ := gather_eq_ok_iff.1 h
  exact gather_eq_ok_iff.2 ⟨found, x.transitiveSupertypes hfound, hs⟩

theorem nestedEntries (x : QuietExtension s u v) (distinct : u.names.Nodup)
    {nested : List NestedEntry} (h : u.nestedEntries s d = .ok nested) :
    v.nestedEntries s d = .ok nested := by
  obtain ⟨found, hfound, hs⟩ := gather_eq_ok_iff.1 h
  refine gather_eq_ok_iff.2 ⟨found, x.transitiveSupertypes hfound, ?_⟩
  refine select_keeps (fun f b hb => ?_) (fun _ _ hr => hr) hs
  exact liftDeclarations_eq_ok.2 (x.holdsContainer distinct (liftDeclarations_eq_ok.1 hb))

theorem planFor (x : QuietExtension s u v) (distinct : u.names.Nodup) {p : ContainerPlan}
    (h : u.planFor s d = .ok p) : v.planFor s d = .ok p := by
  obtain ⟨entries, wiring, he, hw, hp⟩ := planFor_eq_ok_iff.1 h
  refine planFor_eq_ok_iff.2 ⟨entries, wiring, x.actionEntries he, ?_, hp⟩
  by_cases many : 1 < d.constructors.length
  · obtain ⟨nested, hn, hwiring⟩ := (wiringSubclass_eq_ok_iff many).1 hw
    exact (wiringSubclass_eq_ok_iff many).2 ⟨nested, x.nestedEntries distinct hn, hwiring⟩
  · rw [wiringSubclass_of_few (Nat.not_lt.1 many)] at hw ⊢
    exact hw

theorem planAll (x : QuietExtension s u v) (distinct : u.names.Nodup) {ds : List Declaration}
    {plans : List ContainerPlan} (h : u.planAll s ds = .ok plans) :
    v.planAll s ds = .ok plans := by
  refine select_keeps (fun d b hb => ?_) (fun d p hp => x.planFor distinct hp) h
  exact liftDeclarations_eq_ok.2 (x.qualifies (liftDeclarations_eq_ok.1 hb))

theorem plan (x : QuietExtension s u v) {more : List Declaration} (hown : v.own = u.own ++ more)
    (hmore : ∀ d ∈ more, v.qualifies s d = .ok false) {plans : List ContainerPlan}
    (h : u.plan s = .ok plans) : v.plan s = .ok plans := by
  obtain ⟨distinct, hall⟩ := plan_eq_ok_iff.1 h
  refine plan_eq_ok_iff.2 ⟨x.distinct, ?_⟩
  rw [hown, CompilationUnit.planAll, select_append_of_refused]
  · exact x.planAll distinct hall
  · intro d hd
    exact liftDeclarations_eq_ok.2 (hmore d hd)

end QuietExtension

theorem quietExtension_addEach {adds : List (Origin × Declaration)}
    (distinct : (u.addEach adds).names.Nodup)
    (refused : ∀ a ∈ adds, (u.addEach adds).qualifies s a.2 = .ok false) :
    QuietExtension s u (u.addEach adds) where
  distinct := distinct
  keeps name d h := by
    obtain ⟨hmem, hname⟩ := mem_of_lookup_eq_some h
    exact (lookup_eq_some_iff distinct).2 ⟨mem_visible_addEach.2 (.inl hmem), hname⟩
  quiet name d hnone h := by
    obtain ⟨hmem, hname⟩ := mem_of_lookup_eq_some h
    rcases mem_visible_addEach.1 hmem with hmem | ⟨a, ha, rfl⟩
    · refine absurd ?_ ((lookup_eq_none_iff (distinct_of_lookup hnone)).1 hnone)
      exact hname ▸ List.mem_map_of_mem hmem
    · exact refused a ha

end CompilationUnit

inductive ContainerPlan.DeclaredBy (p : ContainerPlan) (d : Declaration) : Prop
  | wiring (c : WiringSubclass) : p.wiring = some c → d.name = c.className →
      d.displayName? = none → d.supertypes = [c.baseName] → DeclaredBy p d
  | names : d.name = p.names.className → d.displayName? = none → d.supertypes = [] →
      DeclaredBy p d

namespace CompilationUnit

variable {u v : CompilationUnit} {s : Settings} {d : Declaration}

theorem qualifies_of_declaredBy (distinct : v.names.Nodup) {p : ContainerPlan}
    (hp : u.planFor s d = .ok p) {e : Declaration} (he : p.DeclaredBy e) :
    v.qualifies s e = .ok false := by
  obtain ⟨entries, wiring, -, hw, rfl⟩ := planFor_eq_ok_iff.1 hp
  cases he with
  | names _ _ hsupertypes => exact qualifies_of_no_supertypes distinct hsupertypes
  | wiring c hc hname hshown _ =>
      by_cases many : 1 < d.constructors.length
      · obtain ⟨nested, -, rfl⟩ := (wiringSubclass_eq_ok_iff many).1 hw
        cases hc
        exact qualifies_of_not_candidate (Settings.not_candidate_of_generated hname hshown)
      · rw [wiringSubclass_of_few (Nat.not_lt.1 many)] at hw
        cases hw
        cases hc

theorem plan_addEach (u : CompilationUnit) (s : Settings) (plans : List ContainerPlan)
    (h : u.plan s = .ok plans) (adds : List (Origin × Declaration))
    (pairwise : (adds.map fun a => a.2.name).Nodup) (fresh : ∀ a ∈ adds, a.2.name ∉ u.names) :
    ((∀ a ∈ adds, (u.addEach adds).qualifies s a.2 = .ok false) →
      (u.addEach adds).plan s = .ok plans) ∧
    ((∀ a ∈ adds, ∃ p ∈ plans, p.DeclaredBy a.2) → (u.addEach adds).plan s = .ok plans) := by
  have distinct : (u.addEach adds).names.Nodup :=
    names_addEach_nodup_iff.2 ⟨(plan_eq_ok_iff.1 h).1, pairwise, fresh⟩
  have hquiet : (∀ a ∈ adds, (u.addEach adds).qualifies s a.2 = .ok false) →
      (u.addEach adds).plan s = .ok plans := by
    intro refused
    refine (quietExtension_addEach distinct refused).plan (own_addEach u adds) ?_ h
    intro d hd
    exact refused (.own, d) (mem_addedTo.1 hd)
  refine ⟨hquiet, fun hdeclared => hquiet fun a ha => ?_⟩
  obtain ⟨p, hp, hap⟩ := hdeclared a ha
  obtain ⟨d, -, -, hd⟩ := exists_planned_of_mem h hp
  exact qualifies_of_declaredBy distinct hd hap

def sampleClasses : List (Origin × Declaration) :=
  [(.own, { name := "_$App", constructors := [{ name := "_" }], supertypes := ["App"] }),
    (.library, { name := "AppNames" }),
    (.own, { name := "ChildNames" })]

theorem plan_addEach_sample :
    sampleUnit.plan {} = .ok [sampleAppPlan, sampleChildPlan] ∧
      (sampleUnit.addEach sampleClasses).plan {} = .ok [sampleAppPlan, sampleChildPlan] := by
  have pairwise : (sampleClasses.map fun a => a.2.name).Nodup := by decide
  have fresh : ∀ a ∈ sampleClasses, a.2.name ∉ sampleUnit.names := by decide
  obtain ⟨-, hclasses⟩ := plan_addEach sampleUnit {} _ plan_sampleUnit sampleClasses pairwise fresh
  refine ⟨plan_sampleUnit, hclasses ?_⟩
  intro a ha
  simp only [sampleClasses, List.mem_cons, List.not_mem_nil, or_false] at ha
  rcases ha with rfl | rfl | rfl
  · exact ⟨_, List.mem_cons_self, .wiring _ rfl rfl rfl rfl⟩
  · exact ⟨_, List.mem_cons_self, .names rfl rfl rfl⟩
  · exact ⟨_, List.mem_cons_of_mem _ List.mem_cons_self, .names rfl rfl rfl⟩

end CompilationUnit

end ActionWiring
