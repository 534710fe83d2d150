import Mathlib.Data.List.Nodup
import Mathlib.Data.List.Perm.Basic
import ActionWiring.Proofs.PlanContents
import ActionWiring.Proofs.PlanSuccess

namespace ActionWiring

structure Declaration.Relists (d e : Declaration) : Prop where
  name : d.name = e.name
  displayName : d.displayName? = e.displayName?
  kind : d.kind = e.kind
  constructors : d.constructors = e.constructors
  fields : d.fields = e.fields
  supertypes : ∀ name, name ∈ d.supertypes ↔ name ∈ e.supertypes

namespace Declaration.Relists

variable {d e : Declaration} {s : Settings}

theorem symm (r : d.Relists e) : e.Relists d where
  name := r.name.symm
  displayName := r.displayName.symm
  kind := r.kind.symm
  constructors := r.constructors.symm
  fields := r.fields.symm
  supertypes name := (r.supertypes name).symm

theorem candidate_iff (r : d.Relists e) : s.Candidate d ↔ s.Candidate e := by
  rw [← Settings.isCandidate_iff, ← Settings.isCandidate_iff, Settings.isCandidate,
    Settings.isCandidate, isClassLike, isClassLike, shownName, shownName, r.kind, r.displayName,
    r.name]

end Declaration.Relists

namespace CompilationUnit

structure Relists (u v : CompilationUnit) : Prop where
  own : List.Forall₂ Declaration.Relists u.own v.own
  library : List.Forall₂ Declaration.Relists u.library v.library

namespace Relists

variable {u v : CompilationUnit} {d e : Declaration} {s : Settings}

theorem symm (r : u.Relists v) : v.Relists u where
  own := (r.own.imp fun _ _ h => h.symm).flip
  library := (r.library.imp fun _ _ h => h.symm).flip

theorem visible (r : u.Relists v) : List.Forall₂ Declaration.Relists u.visible v.visible :=
  List.rel_append r.own r.library

theorem names_eq (r : u.Relists v) : u.names = v.names := by
  rw [names, names, ← List.forall₂_eq_eq_eq, List.forall₂_map_left_iff, List.forall₂_map_right_iff]
  exact r.visible.imp fun _ _ h => h.name

theorem exists_of_mem (r : u.Relists v) (h : d ∈ u.visible) : ∃ e ∈ v.visible, d.Relists e := by
  obtain ⟨e, he, hed⟩ := exists_of_mem_right r.symm.visible h
  exact ⟨e, he, hed.symm⟩

theorem lookup (r : u.Relists v) {name : String} (h : u.lookup name = .ok (some d)) :
    ∃ e, v.lookup name = .ok (some e) ∧ d.Relists e := by
  have distinct : v.names.Nodup := r.names_eq ▸ distinct_of_lookup h
  obtain ⟨hmem, hname⟩ := mem_of_lookup_eq_some h
  obtain ⟨e, he, hde⟩ := r.exists_of_mem hmem
  exact ⟨e, (lookup_eq_some_iff distinct).2 ⟨he, hde.name ▸ hname⟩, hde⟩

theorem ancestor (r : u.Relists v) (hd : d.Relists e) {name : String} (h : u.Ancestor d name) :
    v.Ancestor e name := by
  induction h with
  | direct hmem => exact .direct ((hd.supertypes _).1 hmem)
  | beyond _ hl hmem ih =>
      obtain ⟨f, hf, hrelists⟩ := r.lookup hl
      exact .beyond ih hf ((hrelists.supertypes _).1 hmem)

theorem ancestor_iff (r : u.Relists v) (hd : d.Relists e) {name : String} :
    u.Ancestor d name ↔ v.Ancestor e name :=
  ⟨r.ancestor hd, r.symm.ancestor hd.symm⟩

theorem soundHierarchy (r : u.Relists v) (hd : d.Relists e) (sound : u.SoundHierarchy d) :
    v.SoundHierarchy e where
  known name h := by
    obtain ⟨f, hf⟩ := sound.known name ((r.ancestor_iff hd).2 h)
    obtain ⟨g, hg, -⟩ := r.lookup hf
    exact ⟨g, hg⟩
  proper h := by
    have hproper := sound.proper
    rw [hd.name] at hproper
    exact hproper ((r.ancestor_iff hd).2 h)

theorem transitiveSupertypes (r : u.Relists v) (distinct : u.names.Nodup) (hd : d.Relists e)
    {found : List Declaration} (h : u.transitiveSupertypes d = .ok found) :
    ∃ found', v.transitiveSupertypes e = .ok found' :=
  (transitiveSupertypes_ok_iff (r.names_eq ▸ distinct)).2
    (r.soundHierarchy hd (listsAbove_of_ok h).soundHierarchy)

theorem qualifies (r : u.Relists v) (distinct : u.names.Nodup) (hd : d.Relists e) {b : Bool}
    (h : u.qualifies s d = .ok b) : v.qualifies s e = .ok b := by
  by_cases hc : s.Candidate d
  · obtain ⟨⟨found, hfound⟩, hmarked⟩ := (qualifies_eq_ok_iff hc).1 h
    refine (qualifies_eq_ok_iff (hd.candidate_iff.1 hc)).2
      ⟨r.transitiveSupertypes distinct hd hfound, ?_⟩
    rw [hmarked, r.ancestor_iff hd]
  · rw [qualifies_of_not_candidate hc] at h
    rw [qualifies_of_not_candidate (mt hd.candidate_iff.2 hc), h]

theorem qualifies_iff (r : u.Relists v) (distinct : u.names.Nodup) (hd : d.Relists e) {b : Bool} :
    u.qualifies s d = .ok b ↔ v.qualifies s e = .ok b :=
  ⟨r.qualifies distinct hd, r.symm.qualifies (r.names_eq ▸ distinct) hd.symm⟩

theorem denotes (r : u.Relists v) {type : DartType} (h : u.Denotes type d) :
    ∃ e, v.Denotes type e ∧ d.Relists e := by
  obtain ⟨name, hname, hl⟩ := h
  obtain ⟨e, he, hd⟩ := r.lookup hl
  exact ⟨e, ⟨name, hname, he⟩, hd⟩

theorem holdsContainer (r : u.Relists v) (distinct : u.names.Nodup) {type : DartType} {b : Bool}
    (h : u.holdsContainer s type = .ok b) : v.holdsContainer s type = .ok b := by
  by_cases hu : ∃ d, u.Denotes type d
  · obtain ⟨d, hd⟩ := hu
    obtain ⟨e, he, hde⟩ := r.denotes hd
    rw [holdsContainer_of_denotes hd] at h
    rw [holdsContainer_of_denotes he]
    exact r.qualifies distinct hde h
  · have hv : ∀ e, ¬ v.Denotes type e := by
      intro e he
      obtain ⟨d, hd, -⟩ := r.symm.denotes he
      exact hu ⟨d, hd⟩
    rw [holdsContainer_of_not_denotes distinct (not_exists.1 hu)] at h
    rw [holdsContainer_of_not_denotes (r.names_eq ▸ distinct) hv, h]

theorem above (r : u.Relists v) (hd : d.Relists e) {a : Declaration} (h : u.Above d a) :
    ∃ b, v.Above e b ∧ a.Relists b := by
  obtain ⟨name, hanc, hl⟩ := h
  obtain ⟨b, hb, hab⟩ := r.lookup hl
  exact ⟨b, ⟨name, r.ancestor hd hanc, hb⟩, hab⟩

theorem mem_named_fields (r : u.Relists v) (hd : d.Relists e) {found found' : List Declaration}
    (l : u.ListsAbove d found) (l' : v.ListsAbove e found') {named : String × List Field}
    (h : named ∈ found.map fun a => (a.name, a.fields)) :
    named ∈ found'.map fun a => (a.name, a.fields) := by
  obtain ⟨a, ha, rfl⟩ := List.mem_map.1 h
  obtain ⟨b, hb, hab⟩ := r.above hd ((l.mem_iff a).1 ha)
  exact List.mem_map.2 ⟨b, (l'.mem_iff b).2 hb, by rw [hab.name, hab.fields]⟩

theorem fields_perm (r : u.Relists v) (hd : d.Relists e) {found found' : List Declaration}
    (h : u.transitiveSupertypes d = .ok found) (h' : v.transitiveSupertypes e = .ok found') :
    (found.flatMap Declaration.fields).Perm (found'.flatMap Declaration.fields) := by
  have l := listsAbove_of_ok h
  have l' := listsAbove_of_ok h'
  have hnodup : ∀ ds : List Declaration, (ds.map Declaration.name).Nodup →
      (ds.map fun a => (a.name, a.fields)).Nodup := by
    intro ds hds
    refine List.Nodup.of_map Prod.fst ?_
    rwa [List.map_map]
  have hperm : (found.map fun a => (a.name, a.fields)).Perm
      (found'.map fun a => (a.name, a.fields)) := by
    refine (List.perm_ext_iff_of_nodup (hnodup _ l.distinct) (hnodup _ l'.distinct)).2 fun named => ?_
    exact ⟨r.mem_named_fields hd l l', r.symm.mem_named_fields hd.symm l' l⟩
  have hflat : ∀ ds : List Declaration,
      ds.flatMap Declaration.fields = (ds.map fun a => (a.name, a.fields)).flatMap Prod.snd := by
    intro ds
    rw [List.flatMap_map]
  rw [hflat, hflat]
  exact hperm.flatMap_right _

end Relists

end CompilationUnit

section

variable {ι ε α : Type} {R : ι → α → Prop} {is is' js js' : List ι} {rs rs' : List α}

theorem forall₂_append_left (h : List.Forall₂ R (is ++ js) rs) :
    ∃ first rest, rs = first ++ rest ∧ List.Forall₂ R is first ∧ List.Forall₂ R js rest := by
  induction is generalizing rs with
  | nil => exact ⟨[], rs, rfl, .nil, h⟩
  | cons i is ih =>
      cases h with
      | cons hr hrest =>
          obtain ⟨first, rest, rfl, hfirst, htail⟩ := ih hrest
          exact ⟨_ :: first, rest, rfl, .cons hr hfirst, htail⟩

def SameAfter (R : ι → α → Prop) (is : List ι) (rs rs' : List α) : Prop :=
  ∃ first rest rest', rs = first ++ rest ∧ rs' = first ++ rest' ∧ rest.Perm rest' ∧
    List.Forall₂ R is first

theorem SameAfter.perm (h : SameAfter R is rs rs') : rs.Perm rs' := by
  obtain ⟨first, rest, rest', rfl, rfl, hperm, -⟩ := h
  exact hperm.append_left first

theorem SameAfter.imp {S : ι → α → Prop} (himp : ∀ i r, R i r → S i r)
    (h : SameAfter R is rs rs') : SameAfter S is rs rs' := by
  obtain ⟨first, rest, rest', hrs, hrs', hperm, hfirst⟩ := h
  exact ⟨first, rest, rest', hrs, hrs', hperm, hfirst.imp himp⟩

theorem exists_sameAfter (h : List.Forall₂ R (is ++ js) rs) (hperm : js.Perm js') :
    ∃ rs', List.Forall₂ R (is ++ js') rs' ∧ SameAfter R is rs rs' := by
  obtain ⟨first, rest, rfl, hfirst, hrest⟩ := forall₂_append_left h
  obtain ⟨rest', hrest', hmoved⟩ := List.perm_comp_forall₂ hperm.symm hrest
  exact ⟨first ++ rest', List.rel_append hfirst hrest',
    first, rest, rest', rfl, rfl, hmoved.symm, hfirst⟩

end

namespace CompilationUnit.Relists

variable {u v : CompilationUnit} {d e : Declaration} {s : Settings} {α : Type}

theorem gather (r : u.Relists v) (distinct : u.names.Nodup) (hd : d.Relists e)
    {chosen chosen' : Field → Except PlanError Bool} {result : Field → Except PlanError α}
    (tests : ∀ f b, chosen f = .ok b → chosen' f = .ok b) {rs : List α}
    (h : u.gather d chosen (fun _ f => result f) = .ok rs) :
    ∃ rs', v.gather e chosen' (fun _ f => result f) = .ok rs' ∧
      SameAfter (fun f r => result f = .ok r) (d.fields.filter (accepts chosen)) rs rs' := by
  obtain ⟨found, hfound, -⟩ := gather_eq_ok_iff.1 h
  obtain ⟨htests, hresults⟩ := (gather_eq_ok_iff_of_found hfound).1 h
  obtain ⟨found', hfound'⟩ := r.transitiveSupertypes distinct hd hfound
  have hperm := r.fields_perm hd hfound hfound'
  have hfields : ∀ f, f ∈ (e :: found').flatMap Declaration.fields →
      f ∈ (d :: found).flatMap Declaration.fields := by
    intro f hf
    rw [List.flatMap_cons, ← hd.fields, List.mem_append, ← hperm.mem_iff, ← List.mem_append] at hf
    exact hf
  have haccepts : ∀ f ∈ (d :: found).flatMap Declaration.fields,
      accepts chosen f = accepts chosen' f := by
    intro f hf
    obtain ⟨b, hb⟩ := htests f hf
    rw [accepts_of_ok hb, accepts_of_ok (tests f b hb)]
  rw [List.flatMap_cons, List.filter_append] at hresults
  obtain ⟨rs', hrs', hsame⟩ := exists_sameAfter hresults (hperm.filter (accepts chosen))
  refine ⟨rs', (gather_eq_ok_iff_of_found hfound').2 ⟨fun f hf => ?_, ?_⟩, hsame⟩
  · obtain ⟨b, hb⟩ := htests f (hfields f hf)
    exact ⟨b, tests f b hb⟩
  · rw [← List.filter_congr fun f hf => haccepts f (hfields f hf), List.flatMap_cons,
      List.filter_append, ← hd.fields]
    exact hrs'

theorem actionEntries (r : u.Relists v) (distinct : u.names.Nodup) (hd : d.Relists e)
    {entries : List ActionEntry} (h : u.actionEntries s d = .ok entries) :
    ∃ entries', v.actionEntries s e = .ok entries' ∧
      SameAfter (fun f x => ActionEntry.Describes d.name f x)
        (d.fields.filter fun f => f.type.name? = some s.dispatcherMarker) entries entries' := by
  obtain ⟨entries', h', hsame⟩ := r.gather distinct hd (fun _ _ hb => hb) h
  rw [CompilationUnit.actionEntries, ← hd.name]
  refine ⟨entries', h', ?_⟩
  rw [filter_accepts (P := fun f : Field => f.type.name? = some s.dispatcherMarker)
    (fun f _ => ⟨_, rfl⟩)] at hsame
  · exact hsame.imp fun f x => ActionEntry.describes_of_ofField
  · rintro f _ ⟨⟩
    exact Settings.isDispatcherType_iff.symm

open Classical in
theorem nestedEntries (r : u.Relists v) (distinct : u.names.Nodup) (hd : d.Relists e)
    {nested : List NestedEntry} (h : u.nestedEntries s d = .ok nested) :
    ∃ nested', v.nestedEntries s e = .ok nested' ∧
      SameAfter (fun f x => NestedEntry.Describes f x)
        (d.fields.filter fun f => ∃ a, u.Denotes f.type a ∧ u.Qualifying s a) nested nested' := by
  obtain ⟨found, hfound, -⟩ := gather_eq_ok_iff.1 h
  obtain ⟨htests, -⟩ := (gather_eq_ok_iff_of_found hfound).1 h
  have tests : ∀ (f : Field) b, liftDeclarations (u.holdsContainer s f.type) = .ok b →
      liftDeclarations (v.holdsContainer s f.type) = .ok b := by
    intro f b hb
    exact liftDeclarations_eq_ok.2 (r.holdsContainer distinct (liftDeclarations_eq_ok.1 hb))
  obtain ⟨nested', h', hsame⟩ := r.gather distinct hd tests h
  refine ⟨nested', h', ?_⟩
  rw [filter_accepts (P := fun f : Field => ∃ a, u.Denotes f.type a ∧ u.Qualifying s a)
    (fun f hf => htests f (List.mem_append_left _ hf))] at hsame
  · exact hsame.imp fun f x => NestedEntry.describes_of_ofField
  · intro f b hb
    exact denotes_qualifying_iff_of_ok distinct (liftDeclarations_eq_ok.1 hb)

end CompilationUnit.Relists

namespace CompilationUnit

variable {u v : CompilationUnit} {d e : Declaration} {s : Settings}

open Classical in
structure WiredAlike (u : CompilationUnit) (s : Settings) (d : Declaration)
    (c c' : WiringSubclass) : Prop where
  className : c.className = c'.className
  baseName : c.baseName = c'.baseName
  dispatcherType : c.dispatcherType = c'.dispatcherType
  dispatchers : SameAfter (fun f x => ActionEntry.Describes d.name f x)
    (d.fields.filter fun f => f.type.name? = some s.dispatcherMarker) c.dispatchers c'.dispatchers
  nested : SameAfter (fun f x => NestedEntry.Describes f x)
    (d.fields.filter fun f => ∃ a, u.Denotes f.type a ∧ u.Qualifying s a) c.nested c'.nested

structure PlannedAlike (u : CompilationUnit) (s : Settings) (d : Declaration)
    (p p' : ContainerPlan) : Prop where
  container : p.container = d.name
  container' : p'.container = d.name
  className : p.names.className = p'.names.className
  nameType : p.names.nameType = p'.names.nameType
  entries : SameAfter (fun f x => ActionEntry.Describes d.name f x)
    (d.fields.filter fun f => f.type.name? = some s.dispatcherMarker) p.names.entries p'.names.entries
  wiring_isSome : p.wiring.isSome = p'.wiring.isSome
  wiring : ∀ c c', p.wiring = some c → p'.wiring = some c' → u.WiredAlike s d c c'

namespace Relists

theorem planFor (r : u.Relists v) (distinct : u.names.Nodup) (hd : d.Relists e) {p : ContainerPlan}
    (h : u.planFor s d = .ok p) :
    ∃ p', v.planFor s e = .ok p' ∧ u.PlannedAlike s d p p' := by
  obtain ⟨entries, wiring, he, hw, rfl⟩ := planFor_eq_ok_iff.1 h
  obtain ⟨entries', he', hentries⟩ := r.actionEntries distinct hd he
  have hclass : (namesClass s d entries).className = (namesClass s e entries').className :=
    congrArg Naming.namesClass hd.name
  by_cases many : 1 < d.constructors.length
  · have many' : 1 < e.constructors.length := hd.constructors ▸ many
    obtain ⟨nested, hn, rfl⟩ := (wiringSubclass_eq_ok_iff many).1 hw
    obtain ⟨nested', hn', hnested⟩ := r.nestedEntries distinct hd hn
    refine ⟨_, planFor_eq_ok_iff.2 ⟨entries', _, he',
      (wiringSubclass_eq_ok_iff many').2 ⟨nested', hn', rfl⟩, rfl⟩, ?_⟩
    refine ⟨rfl, hd.name.symm, hclass, rfl, hentries, rfl, ?_⟩
    rintro c c' ⟨⟩ ⟨⟩
    exact ⟨congrArg s.subclassName hd.name, hd.name, rfl, hentries, hnested⟩
  · have few : d.constructors.length ≤ 1 := Nat.not_lt.1 many
    have few' : e.constructors.length ≤ 1 := hd.constructors ▸ few
    rw [wiringSubclass_of_few few] at hw
    cases hw
    refine ⟨_, planFor_eq_ok_iff.2 ⟨entries', none, he', wiringSubclass_of_few few', rfl⟩, ?_⟩
    refine ⟨rfl, hd.name.symm, hclass, rfl, hentries, rfl, ?_⟩
    rintro c c' ⟨⟩

theorem planAll (r : u.Relists v) (distinct : u.names.Nodup) {ds es : List Declaration}
    (hds : List.Forall₂ Declaration.Relists ds es) {plans : List ContainerPlan}
    (h : u.planAll s ds = .ok plans) :
    ∃ plans', v.planAll s es = .ok plans' ∧
      List.Forall₂ (fun p p' => ∃ d ∈ ds, u.PlannedAlike s d p p') plans plans' := by
  induction hds generalizing plans with
  | nil =>
      cases h
      exact ⟨[], rfl, .nil⟩
  | @cons d e ds es hd _ ih =>
      have lift : ∀ {rest rest' : List ContainerPlan},
          List.Forall₂ (fun p p' => ∃ d ∈ ds, u.PlannedAlike s d p p') rest rest' →
          List.Forall₂ (fun p p' => ∃ a ∈ d :: ds, u.PlannedAlike s a p p') rest rest' := by
        intro rest rest' hrest
        refine hrest.imp ?_
        rintro p p' ⟨a, ha, halike⟩
        exact ⟨a, List.mem_cons_of_mem _ ha, halike⟩
      rcases select_cons_eq_ok.1 h with ⟨hb, hs⟩ | ⟨hb, p, rest, hp, hs, rfl⟩
      · obtain ⟨plans', hplans', halike⟩ := ih hs
        have hb' := r.qualifies distinct hd (liftDeclarations_eq_ok.1 hb)
        exact ⟨plans', select_cons_eq_ok.2 (.inl ⟨liftDeclarations_eq_ok.2 hb', hplans'⟩),
          lift halike⟩
      · obtain ⟨rest', hrest', halike⟩ := ih hs
        obtain ⟨p', hp', hpp'⟩ := r.planFor distinct hd hp
        have hb' := r.qualifies distinct hd (liftDeclarations_eq_ok.1 hb)
        refine ⟨p' :: rest', select_cons_eq_ok.2 (.inr ⟨liftDeclarations_eq_ok.2 hb', p', rest',
          hp', hrest', rfl⟩), .cons ⟨d, List.mem_cons_self, hpp'⟩ (lift halike)⟩

theorem plan (r : u.Relists v) {plans : List ContainerPlan} (h : u.plan s = .ok plans) :
    ∃ plans', v.plan s = .ok plans' ∧
      List.Forall₂ (fun p p' => ∃ d ∈ u.own, u.PlannedAlike s d p p') plans plans' := by
  obtain ⟨distinct, hall⟩ := plan_eq_ok_iff.1 h
  obtain ⟨plans', hplans', halike⟩ := r.planAll distinct r.own hall
  exact ⟨plans', plan_eq_ok_iff.2 ⟨r.names_eq ▸ distinct, hplans'⟩, halike⟩

end Relists

theorem plan_relisted (u v : CompilationUnit) (distinct : u.names.Nodup) (r : u.Relists v)
    (s : Settings) :
    (∀ d e, d.Relists e → ∀ b, u.qualifies s d = .ok b ↔ v.qualifies s e = .ok b) ∧
    ((∃ plans, u.plan s = .ok plans) ↔ ∃ plans, v.plan s = .ok plans) ∧
    ∀ plans plans', u.plan s = .ok plans → v.plan s = .ok plans' →
      List.Forall₂ (fun p p' => ∃ d ∈ u.own, u.PlannedAlike s d p p') plans plans' := by
  refine ⟨fun d e hd b => r.qualifies_iff distinct hd, ⟨?_, ?_⟩, ?_⟩
  · rintro ⟨plans, h⟩
    obtain ⟨plans', h', -⟩ := r.plan h
    exact ⟨plans', h'⟩
  · rintro ⟨plans, h⟩
    obtain ⟨plans', h', -⟩ := r.symm.plan h
    exact ⟨plans', h'⟩
  · intro plans plans' h h'
    obtain ⟨plans'', h'', halike⟩ := r.plan h
    rw [h', Except.ok.injEq] at h''
    subst h''
    exact halike

def panel (supertypes : List String) : Declaration where
  name := "Panel"
  constructors := [{ name := "" }, { name := "_" }]
  fields := [⟨"own", .named "ActionDispatcher"⟩]
  supertypes := supertypes

def panelMixin (name action : String) : Declaration where
  name := name
  kind := .mixinDecl
  fields := [⟨action, .named "ActionDispatcher"⟩]
  supertypes := ["ReduxActions"]

def panelUnit (supertypes : List String) : CompilationUnit :=
  ofLists [panel supertypes]
    [panelMixin "Opens" "opened", panelMixin "Closes" "closed", { name := "ReduxActions" }]

def panelEntries : List ActionEntry :=
  [⟨"own", "dynamic", "Panel-own"⟩, ⟨"opened", "dynamic", "Panel-opened"⟩,
    ⟨"closed", "dynamic", "Panel-closed"⟩]

theorem plan_panelUnit : ∃ p, (panelUnit ["Opens", "Closes"]).plan {} = .ok [p] ∧
    p.names.entries = panelEntries := by
  have hfound : (panelUnit ["Opens", "Closes"]).transitiveSupertypes (panel ["Opens", "Closes"]) =
      .ok [panelMixin "Opens" "opened", { name := "ReduxActions" }, panelMixin "Closes" "closed"] :=
    transitiveSupertypes_eq_of_runWithin 20 rfl
  have hqualifies : (panelUnit ["Opens", "Closes"]).qualifies {} (panel ["Opens", "Closes"]) =
      .ok true := by
    rw [CompilationUnit.qualifies, hfound]
    rfl
  have hnested : (panelUnit ["Opens", "Closes"]).nestedEntries {} (panel ["Opens", "Closes"]) =
      .ok [] :=
    gather_eq_ok_iff.2 ⟨_, hfound, rfl⟩
  have hplan := planFor_eq_ok_iff.2 ⟨panelEntries, _, gather_eq_ok_iff.2 ⟨_, hfound, rfl⟩,
    (wiringSubclass_eq_ok_iff (by decide)).2 ⟨_, hnested, rfl⟩, rfl⟩
  exact ⟨_, plan_eq_ok_iff.2 ⟨by decide, select_cons_eq_ok.2 (.inr
    ⟨liftDeclarations_eq_ok.2 hqualifies, _, _, hplan, rfl, rfl⟩)⟩, rfl⟩

theorem panelUnit_relists :
    (panelUnit ["Opens", "Closes"]).Relists (panelUnit ["Closes", "Opens", "Closes"]) := by
  have same : ∀ d : Declaration, d.Relists d := fun d => ⟨rfl, rfl, rfl, rfl, rfl, fun _ => Iff.rfl⟩
  refine ⟨.cons ⟨rfl, rfl, rfl, rfl, rfl, fun name => ?_⟩ .nil,
    .cons (same _) (.cons (same _) (.cons (same _) .nil))⟩
  simp only [panel, List.mem_cons, List.not_mem_nil, or_false]
  constructor
  · rintro (h | h)
    · exact .inr (.inl h)
    · exact .inl h
  · rintro (h | h | h)
    · exact .inr h
    · exact .inl h
    · exact .inr h

theorem plan_relisted_panel :
    (panelUnit ["Opens", "Closes"]).names.Nodup ∧
      (panelUnit ["Opens", "Closes"]).Relists (panelUnit ["Closes", "Opens", "Closes"]) ∧
      ∃ p, (panelUnit ["Closes", "Opens", "Closes"]).plan {} = .ok [p] ∧
        panelEntries.Perm p.names.entries := by
  have distinct : (panelUnit ["Opens", "Closes"]).names.Nodup := by decide
  obtain ⟨-, hok, halike⟩ := plan_relisted _ _ distinct panelUnit_relists {}
  obtain ⟨p, hp, hentries⟩ := plan_panelUnit
  obtain ⟨plans', h'⟩ := hok.1 ⟨_, hp⟩
  obtain ⟨p', rest, ⟨d, -, hpp'⟩, hrest, rfl⟩ :=
    List.forall₂_cons_left_iff.1 (halike _ _ hp h')
  rw [List.forall₂_nil_left_iff] at hrest
  subst hrest
  exact ⟨distinct, panelUnit_relists, p', h', hentries ▸ hpp'.entries.perm⟩

end CompilationUnit

end ActionWiring
