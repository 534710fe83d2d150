import ActionWiring.Proofs.FieldSelection
import ActionWiring.Proofs.Planning
import ActionWiring.Proofs.Qualifying

namespace ActionWiring.CompilationUnit

variable {u : CompilationUnit} {s : Settings} {d : Declaration}

def DispatchersAligned (u : CompilationUnit) (s : Settings) (d : Declaration) : Prop :=
  ∀ owner f, u.HasField d owner f → f.type.name? = some s.dispatcherMarker → f.type.WellAligned

def NestedSound (u : CompilationUnit) (s : Settings) (d : Declaration) : Prop :=
  ∀ owner f e, u.HasField d owner f → u.Denotes f.type e → s.Candidate e →
    u.SoundHierarchy e ∧ (u.Ancestor e s.containerMarker → f.type.WellAligned)

theorem actionEntries_ok_iff (distinct : u.names.Nodup) (sound : u.SoundHierarchy d) :
    (∃ entries, u.actionEntries s d = .ok entries) ↔ u.DispatchersAligned s d := by
  rw [actionEntries, gather_ok_iff distinct sound]
  refine forall_congr' fun owner => forall_congr' fun f => imp_congr_right fun _ => ?_
  rw [← Settings.isDispatcherType_iff, ← @ActionEntry.ofField_ok_iff d.name f]
  constructor
  · rintro ⟨b, hb, hresult⟩ ht
    cases hb
    exact hresult ht
  · intro hresult
    exact ⟨_, rfl, hresult⟩

theorem nestedEntries_ok_iff (distinct : u.names.Nodup) (sound : u.SoundHierarchy d) :
    (∃ nested, u.nestedEntries s d = .ok nested) ↔ u.NestedSound s d := by
  rw [nestedEntries, gather_ok_iff distinct sound]
  simp only [liftDeclarations_eq_ok, NestedEntry.ofField_ok_iff]
  constructor
  · intro h owner f e hf he hc
    obtain ⟨b, hb, hresult⟩ := h owner f hf
    have hsound : u.SoundHierarchy e := (holdsContainer_ok_iff distinct).1 ⟨b, hb⟩ e he hc
    refine ⟨hsound, fun hm => hresult ?_⟩
    have htrue : u.holdsContainer s f.type = .ok true :=
      (holdsContainer_eq_true_iff distinct).2 ⟨e, he, ⟨hc, hm⟩, hsound⟩
    rw [htrue] at hb
    cases hb
    rfl
  · intro h owner f hf
    obtain ⟨b, hb⟩ := (holdsContainer_ok_iff distinct).2 fun e he hc => (h owner f e hf he hc).1
    refine ⟨b, hb, ?_⟩
    rintro rfl
    obtain ⟨e, he, q, -⟩ := (holdsContainer_eq_true_iff distinct).1 hb
    exact (h owner f e hf he q.candidate).2 q.marked

theorem planned_ok_iff (distinct : u.names.Nodup) :
    (∃ b, u.qualifies s d = .ok b ∧ (b = true → ∃ p, u.planFor s d = .ok p)) ↔
      (s.Candidate d → u.SoundHierarchy d ∧ (u.Ancestor d s.containerMarker →
        u.DispatchersAligned s d ∧ (1 < d.constructors.length → u.NestedSound s d))) := by
  constructor
  · rintro ⟨b, hb, hplan⟩ hc
    have sound : u.SoundHierarchy d := (qualifies_ok_iff distinct).1 ⟨b, hb⟩ hc
    refine ⟨sound, fun hm => ?_⟩
    obtain ⟨he, hn⟩ := planFor_ok_iff.1 (hplan ((qualifying_iff_of_ok hb).1 ⟨hc, hm⟩))
    exact ⟨(actionEntries_ok_iff distinct sound).1 he,
      fun many => (nestedEntries_ok_iff distinct sound).1 (hn many)⟩
  · intro h
    obtain ⟨b, hb⟩ := (qualifies_ok_iff distinct).2 fun hc => (h hc).1
    refine ⟨b, hb, fun htrue => ?_⟩
    have q : u.Qualifying s d := (qualifying_iff_of_ok hb).2 htrue
    obtain ⟨sound, hfields⟩ := h q.candidate
    obtain ⟨haligned, hnested⟩ := hfields q.marked
    exact planFor_ok_iff.2 ⟨(actionEntries_ok_iff distinct sound).2 haligned,
      fun many => (nestedEntries_ok_iff distinct sound).2 (hnested many)⟩

theorem generate_succeeds_iff (u : CompilationUnit) (s : Settings) (distinct : u.names.Nodup) :
    (∃ text, u.generate s = .ok text) ↔
      ∀ d ∈ u.own, s.Candidate d →
        u.SoundHierarchy d ∧
        (u.Ancestor d s.containerMarker →
          (∀ owner f, u.HasField d owner f → f.type.name? = some s.dispatcherMarker →
            f.type.WellAligned) ∧
          (1 < d.constructors.length →
            ∀ owner f e, u.HasField d owner f → u.Denotes f.type e → s.Candidate e →
              u.SoundHierarchy e ∧
              (u.Ancestor e s.containerMarker → f.type.WellAligned))) := by
  rw [generate_ok_iff]
  simp only [plan_eq_ok_iff, and_iff_right distinct, planAll, select_ok_iff, liftDeclarations_eq_ok]
  exact forall₂_congr fun d _ => planned_ok_iff distinct

def board : Declaration where
  name := "Board"
  constructors := [{ name := "" }, { name := "_" }]
  fields :=
    [⟨"move", .generic .parameterized "ActionDispatcher" [.free "T"] [.named "int"]⟩,
      ⟨"next", .named "Board"⟩]
  supertypes := ["ReduxActions"]

def boardUnit : CompilationUnit :=
  ofLists [board] [{ name := "ReduxActions" }, { name := "Broken", supertypes := ["Gone", "Broken"] }]

theorem generate_succeeds_board :
    boardUnit.names.Nodup ∧ ∃ text, boardUnit.generate {} = .ok text := by
  have distinct : boardUnit.names.Nodup := by decide
  have hmarker : boardUnit.lookup "ReduxActions" = .ok (some { name := "ReduxActions" }) := rfl
  have hboard : boardUnit.lookup "Board" = .ok (some board) := rfl
  have hmove : boardUnit.lookup "ActionDispatcher" = .ok none := rfl
  have hanc : ∀ name, boardUnit.Ancestor board name → name = "ReduxActions" := by
    intro name h
    have hmem : name ∈ ["ReduxActions"] := by
      refine h.mem_of_closed (by simp [board]) ?_
      intro middle hm e he
      rw [List.mem_singleton.1 hm, hmarker] at he
      cases he
      simp
    exact List.mem_singleton.1 hmem
  have sound : boardUnit.SoundHierarchy board := by
    refine ⟨fun name h => ⟨_, hanc name h ▸ hmarker⟩, fun h => ?_⟩
    have hname := hanc _ h
    simp [board] at hname
  have hfield : ∀ owner f, boardUnit.HasField board owner f → f.type.WellAligned ∧
      (∀ e, boardUnit.Denotes f.type e → e = board) := by
    rintro owner f ⟨rfl | ⟨name, h, he⟩, hf⟩
    · rcases List.mem_cons.1 hf with rfl | hf
      · refine ⟨(DartType.wellAligned_iff _).2 rfl, ?_⟩
        rintro e ⟨name, hn, he⟩
        cases hn
        rw [hmove] at he
        cases he
      · rw [List.mem_singleton.1 hf]
        exact ⟨(DartType.wellAligned_iff _).2 rfl, fun e he => he.unique ⟨"Board", rfl, hboard⟩⟩
    · rw [hanc name h, hmarker] at he
      cases he
      cases hf
  refine ⟨distinct, (generate_succeeds_iff boardUnit {} distinct).2 ?_⟩
  intro d hd _
  rw [show d = board from List.mem_singleton.1 hd]
  refine ⟨sound, fun _ => ⟨fun owner f hf _ => (hfield owner f hf).1, ?_⟩⟩
  intro _ owner f e hf he _
  obtain ⟨haligned, hdenotes⟩ := hfield owner f hf
  exact ⟨hdenotes e he ▸ sound, fun _ => haligned⟩

end ActionWiring.CompilationUnit
