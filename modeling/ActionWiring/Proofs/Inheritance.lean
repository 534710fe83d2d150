import Mathlib.Data.List.Flatten
import Mathlib.Data.List.Nodup
import Mathlib.Data.List.Perm.Subperm
import ActionWiring.Proofs.FieldCollection
import ActionWiring.Proofs.PlanContents

namespace ActionWiring

section

variable {ι ε α : Type} {is js : List ι}

theorem subperm_map (f : ι → α) (h : is.Subperm js) : (is.map f).Subperm (js.map f) := by
  obtain ⟨is', hperm, hsub⟩ := h
  exact ⟨is'.map f, hperm.map f, hsub.map f⟩

theorem subperm_flatMap (f : ι → List α) (h : is.Subperm js) :
    (is.flatMap f).Subperm (js.flatMap f) := by
  obtain ⟨is', hperm, hsub⟩ := h
  exact ⟨is'.flatMap f, hperm.flatMap_right f, hsub.flatMap f⟩

theorem forall₂_ok_iff {result : ι → Except ε α} {rs : List α} :
    List.Forall₂ (fun i r => result i = .ok r) is rs ↔ is.map result = rs.map .ok := by
  rw [← List.forall₂_eq_eq_eq, List.forall₂_map_left_iff, List.forall₂_map_right_iff]

theorem subperm_results {result : ι → Except ε α} {rs ss : List α} (h : is.Subperm js)
    (hrs : List.Forall₂ (fun i r => result i = .ok r) is rs)
    (hss : List.Forall₂ (fun j r => result j = .ok r) js ss) : rs.Subperm ss := by
  have hinjective : Function.Injective (Except.ok : α → Except ε α) := fun _ _ he =>
    Except.ok.inj he
  have hmapped : (rs.map (Except.ok : α → Except ε α)).Subperm (ss.map .ok) := by
    rw [← forall₂_ok_iff.1 hrs, ← forall₂_ok_iff.1 hss]
    exact subperm_map result h
  exact (List.map_subperm_map_iff hinjective).1 hmapped

end

def ActionEntry.forContainer (container : String) (e : ActionEntry) : ActionEntry where
  name := e.name
  payload := e.payload
  key := container ++ "-" ++ e.name

theorem ActionEntry.ofField_forContainer {container other : String} {f : Field} {e : ActionEntry}
    (h : ActionEntry.ofField container f = .ok e) :
    ActionEntry.ofField other f = .ok (e.forContainer other) := by
  obtain ⟨payload, hp, rfl⟩ := ActionEntry.ofField_eq_ok_iff.1 h
  exact ActionEntry.ofField_eq_ok_iff.2 ⟨payload, hp, rfl⟩

namespace CompilationUnit

variable {u : CompilationUnit} {s : Settings} {d b e : Declaration} {found above : List Declaration}

theorem Above.ancestor_trans (h : u.Above d b) {name : String} (hb : u.Ancestor b name) :
    u.Ancestor d name := by
  obtain ⟨middle, hmiddle, hl⟩ := h
  exact hmiddle.trans hl hb

theorem Above.trans (h : u.Above d b) (he : u.Above b e) : u.Above d e := by
  obtain ⟨name, hanc, hl⟩ := he
  exact ⟨name, h.ancestor_trans hanc, hl⟩

section

variable (hd : u.transitiveSupertypes d = .ok found) (hb : b ∈ found)

include hd hb

theorem above_of_mem : u.Above d b :=
  ((listsAbove_of_ok hd).mem_iff b).1 hb

theorem mem_of_mem_supertypes (habove : u.transitiveSupertypes b = .ok above) (he : e ∈ above) :
    e ∈ found := by
  have hbe : u.Above b e := ((listsAbove_of_ok habove).mem_iff e).1 he
  exact ((listsAbove_of_ok hd).mem_iff e).2 ((above_of_mem hd hb).trans hbe)

theorem transitiveSupertypes_of_mem (distinct : u.names.Nodup) :
    (∃ above, u.transitiveSupertypes b = .ok above ∧ ∀ e ∈ above, e ∈ found) ∨
      u.transitiveSupertypes b = .error (.ownSupertype b.name) := by
  cases hbs : u.transitiveSupertypes b with
  | ok above => exact .inl ⟨above, rfl, fun e he => mem_of_mem_supertypes hd hb hbs he⟩
  | error cause =>
      rcases transitiveSupertypes_error_cases distinct hbs with ⟨rfl, -⟩ |
        ⟨owner, listed, -, hdangling⟩
      · exact .inr rfl
      · have hanc : u.Ancestor d listed := (above_of_mem hd hb).ancestor_trans hdangling.ancestor
        obtain ⟨e, he⟩ := (listsAbove_of_ok hd).soundHierarchy.known listed hanc
        rw [hdangling.1] at he
        cases he

theorem qualifies_of_mem (hq : u.qualifies s b = .ok true) (hc : s.Candidate d) :
    u.qualifies s d = .ok true := by
  have q : u.Qualifying s b := (qualifying_iff_of_ok hq).2 rfl
  refine (qualifies_eq_ok_iff hc).2 ⟨⟨found, hd⟩, fun _ => ?_, fun _ => rfl⟩
  exact (above_of_mem hd hb).ancestor_trans q.marked

variable (habove : u.transitiveSupertypes b = .ok above)

include habove

theorem hierarchy_subperm : (b :: above).Subperm (d :: found) := by
  have l := listsAbove_of_ok habove
  have hnames : ((b :: above).map Declaration.name).Nodup := List.nodup_cons.2 ⟨l.foreign, l.distinct⟩
  have hnodup : (b :: above).Nodup := List.Nodup.of_map Declaration.name hnames
  refine List.Subperm.cons_right d (List.subperm_of_subset hnodup fun e he => ?_)
  rcases List.mem_cons.1 he with rfl | he
  · exact hb
  · exact mem_of_mem_supertypes hd hb habove he

theorem fieldsWhere_subperm {chosen : Field → Except PlanError Bool}
    (answers : ∀ f, ∃ answer, chosen f = .ok answer) :
    ∃ fs gs, u.fieldsWhere b chosen = .ok fs ∧ u.fieldsWhere d chosen = .ok gs ∧
      fs = ((b :: above).flatMap fun o => o.fields.map (OwnedField.mk o)).filter
        (accepts fun f => chosen f.field) ∧
      gs = ((d :: found).flatMap fun o => o.fields.map (OwnedField.mk o)).filter
        (accepts fun f => chosen f.field) ∧
      fs.Subperm gs := by
  have hfields : ∀ (a : Declaration) (ds : List Declaration), u.transitiveSupertypes a = .ok ds →
      u.fieldsWhere a chosen =
        .ok ((OwnedField.ofDeclarations (a :: ds)).filter (accepts fun f => chosen f.field)) :=
    fun a ds hds => (fieldsWhere_eq_ok_iff hds).2 ⟨fun f _ => answers f.field, rfl⟩
  have howned : (OwnedField.ofDeclarations (b :: above)).Subperm
      (OwnedField.ofDeclarations (d :: found)) :=
    subperm_flatMap _ (hierarchy_subperm hd hb habove)
  exact ⟨_, _, hfields b above habove, hfields d found hd, rfl, rfl, howned.filter _⟩

theorem actionEntries_subperm {entries inherited : List ActionEntry}
    (he : u.actionEntries s d = .ok entries) (hi : u.actionEntries s b = .ok inherited) :
    (inherited.map (ActionEntry.forContainer d.name)).Subperm entries := by
  obtain ⟨-, hentries⟩ := (gather_eq_ok_iff_of_found hd).1 he
  obtain ⟨-, hinherited⟩ := (gather_eq_ok_iff_of_found habove).1 hi
  have hfields := subperm_flatMap Declaration.fields (hierarchy_subperm hd hb habove)
  refine subperm_results (hfields.filter _) ?_ hentries
  rw [List.forall₂_map_right_iff]
  exact hinherited.imp fun f e hf => ActionEntry.ofField_forContainer hf

end

theorem entries_of_planFor {p : ContainerPlan} (h : u.planFor s d = .ok p) :
    u.actionEntries s d = .ok p.names.entries := by
  obtain ⟨entries, _, he, _, rfl⟩ := planFor_eq_ok_iff.1 h
  exact he

theorem key_of_mem_entries {p : ContainerPlan} (h : u.planFor s d = .ok p) {x : ActionEntry}
    (hx : x ∈ p.names.entries) : x.key = d.name ++ "-" ++ x.name := by
  obtain ⟨found, hfound, -⟩ := gather_eq_ok_iff.1 (entries_of_planFor h)
  obtain ⟨f, -, hf⟩ := exists_of_mem_right (actionEntries_describe hfound (entries_of_planFor h)) hx
  exact hf.key_eq

theorem supertypes_inherited (u : CompilationUnit) (distinct : u.names.Nodup) (d : Declaration)
    (found : List Declaration) (hd : u.transitiveSupertypes d = .ok found) (b : Declaration)
    (hb : b ∈ found) :
    ((∃ above, u.transitiveSupertypes b = .ok above ∧ ∀ e ∈ above, e ∈ found) ∨
      u.transitiveSupertypes b = .error (.ownSupertype b.name)) ∧
    (∀ s, u.qualifies s b = .ok true → s.Candidate d → u.qualifies s d = .ok true) ∧
    (∀ above, u.transitiveSupertypes b = .ok above → ∀ chosen : Field → Except PlanError Bool,
      (∀ f, ∃ answer, chosen f = .ok answer) →
        ∃ fs gs, u.fieldsWhere b chosen = .ok fs ∧ u.fieldsWhere d chosen = .ok gs ∧
          fs = ((b :: above).flatMap fun o => o.fields.map (OwnedField.mk o)).filter
            (accepts fun f => chosen f.field) ∧
          gs = ((d :: found).flatMap fun o => o.fields.map (OwnedField.mk o)).filter
            (accepts fun f => chosen f.field) ∧
          fs.Subperm gs) ∧
    ∀ s p q, u.planFor s b = .ok p → u.planFor s d = .ok q →
      (p.names.entries.map fun x =>
        { name := x.name, payload := x.payload, key := d.name ++ "-" ++ x.name }).Subperm
          q.names.entries ∧
      ∀ x ∈ p.names.entries, x.key = b.name ++ "-" ++ x.name := by
  refine ⟨transitiveSupertypes_of_mem hd hb distinct, fun s hq hc => qualifies_of_mem hd hb hq hc,
    fun above habove chosen answers => fieldsWhere_subperm hd hb habove answers, ?_⟩
  intro s p q hp hq
  have hi := entries_of_planFor hp
  obtain ⟨above, habove, -⟩ := gather_eq_ok_iff.1 hi
  exact ⟨actionEntries_subperm hd hb habove (entries_of_planFor hq) hi,
    fun x hx => key_of_mem_entries hp hx⟩

def sampleRightPlan : ContainerPlan where
  container := "Right"
  wiring := none
  names :=
    { className := "RightNames"
      nameType := "ActionName"
      entries := [⟨"reset", "dynamic", "Right-reset"⟩] }

theorem supertypes_inherited_sample :
    sampleRight ∈ [sampleLeft, sampleMarker, sampleRight] ∧
      sampleUnit.qualifies {} sampleApp = .ok true ∧
      sampleUnit.planFor {} sampleRight = .ok sampleRightPlan ∧
      [ActionEntry.mk "reset" "dynamic" "App-reset"].Subperm sampleAppPlan.names.entries := by
  have distinct : sampleUnit.names.Nodup := by decide
  have hmem : sampleRight ∈ [sampleLeft, sampleMarker, sampleRight] := by simp
  have hright : sampleUnit.transitiveSupertypes sampleRight = .ok [sampleMarker, sampleLeft] :=
    transitiveSupertypes_eq_of_runWithin 20 rfl
  have hq : sampleUnit.qualifies {} sampleRight = .ok true := by
    rw [qualifies, hright]
    rfl
  have hp : sampleUnit.planFor {} sampleRight = .ok sampleRightPlan :=
    planFor_eq_ok_iff.2 ⟨_, none, gather_eq_ok_iff.2 ⟨_, hright, rfl⟩,
      wiringSubclass_of_few (by decide), rfl⟩
  obtain ⟨-, hqualifies, -, hentries⟩ := supertypes_inherited sampleUnit distinct sampleApp _
    transitiveSupertypes_sampleApp sampleRight hmem
  have hc : Settings.Candidate {} sampleApp := Settings.isCandidate_iff.1 rfl
  exact ⟨hmem, hqualifies {} hq hc, hp, (hentries {} _ _ hp planFor_sampleApp).1⟩

end CompilationUnit

end ActionWiring
