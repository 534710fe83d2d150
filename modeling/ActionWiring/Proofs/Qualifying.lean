import ActionWiring.Plan.Basic
import ActionWiring.Proofs.Outcomes
import ActionWiring.Proofs.SupertypeWalk

namespace ActionWiring

structure Settings.Candidate (s : Settings) (d : Declaration) : Prop where
  classLike : d.kind = .classDecl ∨ d.kind = .mixinDecl
  unprefixed : ¬ s.generatedPrefix.toList <+: d.shownName.toList

theorem Settings.isCandidate_iff {s : Settings} {d : Declaration} :
    s.isCandidate d = true ↔ s.Candidate d := by
  have hkind : d.isClassLike = true ↔ d.kind = .classDecl ∨ d.kind = .mixinDecl := by
    unfold Declaration.isClassLike
    cases d.kind <;> simp [DeclarationKind.isClassLike]
  have hname : (!s.isGenerated d.shownName) = true ↔
      ¬ s.generatedPrefix.toList <+: d.shownName.toList := by
    rw [← List.isPrefixOf_iff_prefix, isGenerated, Naming.beginsWith, Bool.not_eq_true',
      Bool.not_eq_true]
  rw [isCandidate, Bool.and_eq_true, hkind, hname]
  constructor
  · rintro ⟨hk, hn⟩
    exact ⟨hk, hn⟩
  · intro c
    exact ⟨c.classLike, c.unprefixed⟩

theorem Settings.not_candidate_of_generated {s : Settings} {d : Declaration} {name : String}
    (hname : d.name = s.subclassName name) (hshown : d.displayName? = none) :
    ¬ s.Candidate d := by
  intro c
  apply c.unprefixed
  rw [Declaration.shownName, hshown, Option.getD_none, hname, subclassName, String.toList_append]
  exact List.prefix_append _ _

theorem Settings.isDispatcherType_iff {s : Settings} {type : DartType} :
    s.isDispatcherType type = true ↔ type.name? = some s.dispatcherMarker := by
  rw [isDispatcherType, beq_iff_eq]

namespace CompilationUnit

variable {u : CompilationUnit} {s : Settings} {d : Declaration}

structure Qualifying (u : CompilationUnit) (s : Settings) (d : Declaration) : Prop where
  candidate : s.Candidate d
  marked : u.Ancestor d s.containerMarker

theorem any_marker_iff {found : List Declaration} (l : u.ListsAbove d found) :
    (found.any fun b => b.name == s.containerMarker) = true ↔ u.Ancestor d s.containerMarker := by
  rw [l.names_iff, List.mem_map, List.any_eq_true]
  simp only [beq_iff_eq]

theorem qualifies_of_not_candidate (h : ¬ s.Candidate d) : u.qualifies s d = .ok false := by
  rw [qualifies, if_neg (mt Settings.isCandidate_iff.1 h)]

theorem qualifies_eq_ok_iff (h : s.Candidate d) {b : Bool} :
    u.qualifies s d = .ok b ↔
      (∃ found, u.transitiveSupertypes d = .ok found) ∧
        (b = true ↔ u.Ancestor d s.containerMarker) := by
  rw [qualifies, if_pos (Settings.isCandidate_iff.2 h), bind_pure_eq_ok]
  constructor
  · rintro ⟨found, hfound, rfl⟩
    exact ⟨⟨found, hfound⟩, any_marker_iff (listsAbove_of_ok hfound)⟩
  · rintro ⟨⟨found, hfound⟩, hb⟩
    refine ⟨found, hfound, Bool.eq_iff_iff.2 ?_⟩
    exact (any_marker_iff (listsAbove_of_ok hfound)).trans hb.symm

theorem qualifies_eq_true_iff (distinct : u.names.Nodup) :
    u.qualifies s d = .ok true ↔ u.Qualifying s d ∧ u.SoundHierarchy d := by
  by_cases hc : s.Candidate d
  · rw [qualifies_eq_ok_iff hc, transitiveSupertypes_ok_iff distinct]
    constructor
    · rintro ⟨sound, hm⟩
      exact ⟨⟨hc, hm.1 rfl⟩, sound⟩
    · rintro ⟨q, sound⟩
      exact ⟨sound, fun _ => q.marked, fun _ => rfl⟩
  · rw [qualifies_of_not_candidate hc]
    constructor
    · intro h
      cases h
    · rintro ⟨q, -⟩
      exact absurd q.candidate hc

theorem qualifies_ok_iff (distinct : u.names.Nodup) :
    (∃ b, u.qualifies s d = .ok b) ↔ (s.Candidate d → u.SoundHierarchy d) := by
  classical
  by_cases hc : s.Candidate d
  · simp only [qualifies_eq_ok_iff hc, transitiveSupertypes_ok_iff distinct]
    constructor
    · rintro ⟨-, sound, -⟩ _
      exact sound
    · intro sound
      exact ⟨decide (u.Ancestor d s.containerMarker), sound hc, decide_eq_true_iff⟩
  · rw [qualifies_of_not_candidate hc]
    exact ⟨fun _ h => absurd h hc, fun _ => ⟨false, rfl⟩⟩

theorem qualifies_of_no_supertypes (distinct : u.names.Nodup) (h : d.supertypes = []) :
    u.qualifies s d = .ok false := by
  by_cases hc : s.Candidate d
  · rw [qualifies_eq_ok_iff hc, transitiveSupertypes_ok_iff distinct]
    refine ⟨⟨fun name hanc => absurd hanc (not_ancestor_of_no_supertypes h),
      not_ancestor_of_no_supertypes h⟩, ?_⟩
    exact iff_of_false Bool.false_ne_true (not_ancestor_of_no_supertypes h)
  · exact qualifies_of_not_candidate hc

theorem qualifying_iff_of_ok {b : Bool} (h : u.qualifies s d = .ok b) :
    u.Qualifying s d ↔ b = true := by
  by_cases hc : s.Candidate d
  · rw [((qualifies_eq_ok_iff hc).1 h).2]
    exact ⟨fun q => q.marked, fun hm => ⟨hc, hm⟩⟩
  · rw [qualifies_of_not_candidate hc] at h
    cases h
    constructor
    · intro q
      exact absurd q.candidate hc
    · intro h
      cases h

def Denotes (u : CompilationUnit) (type : DartType) (e : Declaration) : Prop :=
  ∃ name, type.name? = some name ∧ u.lookup name = .ok (some e)

theorem Denotes.unique {type : DartType} {d e : Declaration} (hd : u.Denotes type d)
    (he : u.Denotes type e) : d = e := by
  obtain ⟨name, hn, hd⟩ := hd
  obtain ⟨name', hn', he⟩ := he
  rw [hn] at hn'
  cases hn'
  exact lookup_unique hd he

theorem holdsContainer_of_denotes {type : DartType} {e : Declaration} (h : u.Denotes type e) :
    u.holdsContainer s type = u.qualifies s e := by
  obtain ⟨name, hn, he⟩ := h
  simp only [holdsContainer, hn, he]
  rfl

theorem holdsContainer_of_not_denotes (distinct : u.names.Nodup) {type : DartType}
    (h : ∀ e, ¬ u.Denotes type e) : u.holdsContainer s type = .ok false := by
  unfold holdsContainer
  cases hn : type.name? with
  | none => rfl
  | some name =>
      obtain ⟨found, hl⟩ := lookup_ok distinct name
      cases found with
      | none => simp only [hl]; rfl
      | some e => exact absurd ⟨name, hn, hl⟩ (h e)

theorem holdsContainer_eq_true_iff (distinct : u.names.Nodup) {type : DartType} :
    u.holdsContainer s type = .ok true ↔
      ∃ e, u.Denotes type e ∧ u.Qualifying s e ∧ u.SoundHierarchy e := by
  by_cases h : ∃ e, u.Denotes type e
  · obtain ⟨e, he⟩ := h
    rw [holdsContainer_of_denotes he, qualifies_eq_true_iff distinct]
    constructor
    · intro hq
      exact ⟨e, he, hq⟩
    · rintro ⟨e', he', hq⟩
      exact he.unique he' ▸ hq
  · rw [holdsContainer_of_not_denotes distinct (not_exists.1 h)]
    constructor
    · intro hf
      cases hf
    · rintro ⟨e, he, -⟩
      exact absurd ⟨e, he⟩ h

theorem holdsContainer_ok_iff (distinct : u.names.Nodup) {type : DartType} :
    (∃ b, u.holdsContainer s type = .ok b) ↔
      ∀ e, u.Denotes type e → s.Candidate e → u.SoundHierarchy e := by
  by_cases h : ∃ e, u.Denotes type e
  · obtain ⟨e, he⟩ := h
    rw [holdsContainer_of_denotes he, qualifies_ok_iff distinct]
    constructor
    · intro hs e' he'
      exact he.unique he' ▸ hs
    · intro hs
      exact hs e he
  · rw [holdsContainer_of_not_denotes distinct (not_exists.1 h)]
    constructor
    · intro _ e he
      exact absurd ⟨e, he⟩ h
    · intro _
      exact ⟨false, rfl⟩

theorem denotes_qualifying_iff_of_ok (distinct : u.names.Nodup) {type : DartType} {b : Bool}
    (h : u.holdsContainer s type = .ok b) :
    (∃ e, u.Denotes type e ∧ u.Qualifying s e) ↔ b = true := by
  by_cases hd : ∃ e, u.Denotes type e
  · obtain ⟨e, he⟩ := hd
    rw [holdsContainer_of_denotes he] at h
    rw [← qualifying_iff_of_ok h]
    constructor
    · rintro ⟨e', he', q⟩
      exact he'.unique he ▸ q
    · intro q
      exact ⟨e, he, q⟩
  · rw [holdsContainer_of_not_denotes distinct (not_exists.1 hd)] at h
    cases h
    constructor
    · rintro ⟨e, he, -⟩
      exact absurd ⟨e, he⟩ hd
    · intro hf
      cases hf

end CompilationUnit

end ActionWiring
