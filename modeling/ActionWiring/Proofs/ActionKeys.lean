import Mathlib.Data.List.Nodup
import ActionWiring.Proofs.LiteralScanning
import ActionWiring.Proofs.PlanContents

namespace ActionWiring

theorem Naming.actionKey_inj {container other field field' : String}
    (hcontainer : '-' ∉ container.toList) (hother : '-' ∉ other.toList)
    (h : actionKey container field = actionKey other field') :
    container = other ∧ field = field' := by
  have hchars : ∀ text word : String,
      (actionKey text word).toList = text.toList ++ '-' :: word.toList := by
    intro text word
    simp [actionKey]
  have hkey := congrArg String.toList h
  rw [hchars, hchars] at hkey
  have hplace := congrArg (List.idxOf '-') hkey
  rw [List.idxOf_append_of_notMem hcontainer, List.idxOf_append_of_notMem hother,
    List.idxOf_cons_self, List.idxOf_cons_self] at hplace
  obtain ⟨hname, hfield⟩ := List.append_inj hkey (by simpa using hplace)
  exact ⟨String.toList_inj.1 hname, String.toList_inj.1 (List.cons.inj hfield).2⟩

namespace ContainerPlan

def entryLists (p : ContainerPlan) : List (List ActionEntry) :=
  (p.wiring.map WiringSubclass.dispatchers).toList ++ [p.names.entries]

def actions (p : ContainerPlan) : List ActionEntry := p.entryLists.flatten

end ContainerPlan

namespace CompilationUnit

variable {u : CompilationUnit} {s : Settings} {d : Declaration} {found : List Declaration}
variable {p : ContainerPlan}

theorem PlannedAs.eq_entries (h : u.PlannedAs s d found p) {entries : List ActionEntry}
    (hentries : entries ∈ p.entryLists) : entries = p.names.entries := by
  rcases List.mem_append.1 hentries with hwiring | hnames
  · obtain ⟨c, hc, rfl⟩ := by simpa using hwiring
    exact (h.wiring c hc).dispatchers
  · exact List.mem_singleton.1 hnames

theorem PlannedAs.map_key (h : u.PlannedAs s d found p) :
    p.names.entries.map (fun e => (e.name, e.key)) =
      (((d :: found).flatMap Declaration.fields).filter fun f =>
        f.type.name? = some s.dispatcherMarker).map fun f =>
          (f.name, Naming.actionKey d.name f.name) :=
  map_eq_map_of_forall₂ h.entries fun _ _ describes => Prod.ext describes.name describes.key

theorem PlannedAs.key_of_mem_actions (h : u.PlannedAs s d found p) {e : ActionEntry}
    (he : e ∈ p.actions) : e.key = Naming.actionKey p.container e.name := by
  obtain ⟨entries, hentries, he⟩ := List.mem_flatten.1 he
  rw [h.eq_entries hentries] at he
  obtain ⟨f, -, describes⟩ := exists_of_mem_right h.entries he
  rw [describes.key_eq, h.container]
  rfl

theorem count_actionKey {entries : List ActionEntry} {fields : List Field} {container : String}
    (h : entries.map (fun e => (e.name, e.key)) =
      fields.map fun f => (f.name, Naming.actionKey container f.name)) (name : String) :
    (entries.map ActionEntry.key).count (Naming.actionKey container name) =
      fields.countP fun f => f.name = name := by
  have hkeys : entries.map ActionEntry.key =
      fields.map fun f => Naming.actionKey container f.name := by
    simpa [Function.comp_def] using congrArg (List.map Prod.snd) h
  rw [hkeys, List.count, List.countP_map]
  refine List.countP_congr fun f _ => ?_
  simp [Naming.actionKey]

theorem plan_keys (u : CompilationUnit) (s : Settings) (plans : List ContainerPlan)
    (h : u.plan s = .ok plans)
    (plain : ∀ d ∈ u.own, u.qualifies s d = .ok true → '-' ∉ d.name.toList) :
    (∀ p ∈ plans, ∀ q ∈ plans, ∀ e ∈ p.actions, ∀ e' ∈ q.actions,
      e.key = e'.key ∨ Dart.literal e.key = Dart.literal e'.key → p = q ∧ e.name = e'.name) ∧
    ∀ p ∈ plans, ∃ d ∈ u.own, ∃ found, d.name = p.container ∧
      u.transitiveSupertypes d = .ok found ∧
      let dispatched := ((d :: found).flatMap Declaration.fields).filter fun f =>
        f.type.name? = some s.dispatcherMarker
      ∀ entries ∈ p.entryLists,
        entries.map (fun e => (e.name, e.key)) =
          dispatched.map (fun f => (f.name, Naming.actionKey d.name f.name)) ∧
        ∀ name, (entries.map ActionEntry.key).count (Naming.actionKey d.name name) =
          dispatched.countP fun f => f.name = name := by
  have hcontainer : ∀ p ∈ plans, '-' ∉ p.container.toList ∧
      ∀ e ∈ p.actions, e.key = Naming.actionKey p.container e.name := by
    intro p hp
    obtain ⟨d, hd, hqualifies, found, -, hplanned⟩ := exists_plannedAs_of_mem h hp
    exact ⟨hplanned.container ▸ plain d hd hqualifies, fun e => hplanned.key_of_mem_actions⟩
  constructor
  · intro p hp q hq e he e' he' hsame
    have hkey : e.key = e'.key := hsame.elim id fun hliteral => Dart.literal_injective hliteral
    obtain ⟨hplain, hkeys⟩ := hcontainer p hp
    obtain ⟨hplain', hkeys'⟩ := hcontainer q hq
    rw [hkeys e he, hkeys' e' he'] at hkey
    obtain ⟨hname, hfield⟩ := Naming.actionKey_inj hplain hplain' hkey
    exact ⟨List.inj_on_of_nodup_map (containers_distinct h) hp hq hname, hfield⟩
  · intro p hp
    obtain ⟨d, hd, -, found, hfound, hplanned⟩ := exists_plannedAs_of_mem h hp
    refine ⟨d, hd, found, hplanned.container.symm, hfound, ?_⟩
    intro dispatched entries hentries
    rw [hplanned.eq_entries hentries]
    exact ⟨hplanned.map_key, count_actionKey hplanned.map_key⟩

theorem plan_keys_sample :
    (∀ e ∈ sampleAppPlan.actions, ∀ e' ∈ sampleChildPlan.actions, e.key ≠ e'.key) ∧
      ∃ d ∈ sampleUnit.own, ∃ found, d.name = "App" ∧
        sampleUnit.transitiveSupertypes d = .ok found ∧
        (sampleAppPlan.names.entries.map ActionEntry.key).count "App-reset" = 2 ∧
        ((((d :: found).flatMap Declaration.fields).filter fun f =>
          f.type.name? = some "ActionDispatcher").countP fun f => f.name = "reset") = 2 := by
  have plain : ∀ d ∈ sampleUnit.own, '-' ∉ d.name.toList := by decide
  obtain ⟨hsame, hcount⟩ :=
    plan_keys sampleUnit {} _ plan_sampleUnit fun d hd _ => plain d hd
  constructor
  · intro e he e' he' hkey
    have hplans := hsame sampleAppPlan (by simp) sampleChildPlan (by simp) e he e' he' (.inl hkey)
    exact absurd hplans.1 (by decide)
  · obtain ⟨d, hd, found, hname, hfound, hkeys⟩ := hcount sampleAppPlan (by simp)
    have hreset := (hkeys sampleAppPlan.names.entries (by simp [ContainerPlan.entryLists])).2 "reset"
    rw [hname] at hreset
    exact ⟨d, hd, found, hname, hfound, by decide, hreset.symm.trans (by decide)⟩

end CompilationUnit

end ActionWiring
