import ActionWiring.Proofs.BufferedRewriting

namespace ActionWiring.Document

open Json

variable {depth : Nat} {tree : Tree}

def wordKind : KindReader
  | .string word => TypeKind.ofWord word
  | v => .error (.unexpected (.ofValue v) .word)

theorem scalarOnly_wordKind : ScalarOnly wordKind := ⟨nofun, nofun⟩

theorem readTypeKind_eq_ok {kind : TypeKind} :
    readTypeKind tree = .ok kind ↔ ∃ v, tree.value depth = .ok v ∧ wordKind v = .ok kind := by
  cases tree with
  | string raw =>
      simp only [readTypeKind, Tree.value, liftText, liftData, bind_eq_ok, mapError_eq_ok]
      constructor
      · rintro ⟨word, hword, hkind⟩
        exact ⟨.string word, ⟨word, hword, rfl⟩, hkind⟩
      · rintro ⟨_, ⟨word, hword, ⟨⟩⟩, hkind⟩
        exact ⟨word, hword, hkind⟩
  | array items fault =>
      constructor
      · rintro ⟨⟩
      · rintro ⟨v, hv, hkind⟩
        obtain ⟨_, _, -, -, -, rfl⟩ := value_array_eq_ok.1 hv
        cases hkind
  | object members fault =>
      constructor
      · rintro ⟨⟩
      · rintro ⟨v, hv, hkind⟩
        obtain ⟨_, _, -, -, -, rfl⟩ := value_object_eq_ok.1 hv
        cases hkind
  | number numeral =>
      constructor
      · rintro ⟨⟩
      · rintro ⟨v, hv, hkind⟩
        obtain ⟨n, -, ⟨⟩⟩ := bind_eq_ok.1 hv
        cases hkind
  | _ =>
      constructor
      · rintro ⟨⟩
      · rintro ⟨v, ⟨⟩, ⟨⟩⟩

theorem foldlM_filter_of_pass {δ ε M : Type} {put : δ → M → Except ε δ} {p : M → Bool} {ms : List M}
    (pass : ∀ m ∈ ms, p m = false → ∀ d, put d m = .ok d) (d : δ) :
    (ms.filter p).foldlM put d = ms.foldlM put d := by
  induction ms generalizing d with
  | nil => rfl
  | cons m ms ih =>
      obtain ⟨hm, hms⟩ := List.forall_mem_cons.1 pass
      cases hp : p m with
      | true =>
          rw [List.filter_cons_of_pos hp, List.foldlM_cons, List.foldlM_cons]
          exact bind_congr fun d => ih hms d
      | false =>
          rw [List.filter_cons_of_neg (by simp [hp]), List.foldlM_cons, hm hp d]
          exact ih hms d

def isPart (m : String × Value) : Bool := m.1 != kindField

theorem typeOfMembers_filter (kind : TypeKind) (ms : List (String × Value)) :
    typeOfMembers kind (ms.filter isPart) = typeOfMembers kind ms := by
  have hkind (m : String × Value) (hm : isPart m = false) : m.1 = kindField := by
    simpa [isPart] using hm
  cases kind with
  | named =>
      change namedMembers none _ = namedMembers none _
      rw [namedMembers_eq, namedMembers_eq, foldlM_filter_of_pass fun m _ hm d => ?_]
      rw [hkind m hm]
      rfl
  | generic form =>
      change genericMembers form {} _ = genericMembers form {} _
      rw [genericMembers_eq, genericMembers_eq, foldlM_filter_of_pass fun m _ hm d => ?_]
      rw [hkind m hm]
      rfl
  | void | dynamic | unresolved => rfl

theorem readTagged_cons_eq_ok {key : Tree} {members : List (Tree × Tree)}
    {found kind : Option TypeKind} {parts : List (String × Value)} :
    readTagged depth found ((key, tree) :: members) = .ok (kind, parts) ↔
      ∃ m next rest, memberValue depth (key, tree) = .ok m ∧
        kindPut wordKind found m.1 m.2 = .ok next ∧
        readTagged depth next members = .ok (kind, rest) ∧ [m].filter isPart ++ rest = parts := by
  simp only [readTagged, liftText, bind_eq_ok, mapError_eq_ok, memberValue_eq_ok, kindPut]
  constructor
  · rintro ⟨name, hname, h⟩
    by_cases hkind : name = kindField
    · rw [if_pos hkind, bind_eq_ok] at h
      obtain ⟨next, hfill, hrest⟩ := h
      obtain ⟨hnone, word, hread, rfl⟩ := fill_eq_ok.1 hfill
      obtain ⟨v, hv, hword⟩ := readTypeKind_eq_ok.1 hread
      refine ⟨(name, v), some word, parts, ⟨hname, hv⟩, ?_, hrest, ?_⟩
      · rw [if_pos hkind, fillOnce_eq_ok]
        exact ⟨hnone, word, hword, rfl⟩
      · simp [isPart, hkind]
    · rw [if_neg hkind] at h
      simp only [bind_eq_ok, mapError_eq_ok] at h
      obtain ⟨v, hv, ⟨_, rest⟩, hrest, ⟨⟩⟩ := h
      exact ⟨(name, v), found, rest, ⟨hname, hv⟩, if_neg hkind, hrest,
        by simp [isPart, List.filter_cons, hkind]⟩
  · rintro ⟨⟨name, v⟩, next, rest, ⟨hname, hv⟩, hput, hrest, rfl⟩
    refine ⟨name, hname, ?_⟩
    by_cases hkind : name = kindField
    · rw [if_pos hkind, fillOnce_eq_ok] at hput
      obtain ⟨hnone, word, hword, rfl⟩ := hput
      have hread : readTypeKind tree = .ok word := readTypeKind_eq_ok.2 ⟨v, hv, hword⟩
      rw [if_pos hkind, bind_eq_ok]
      exact ⟨some word, fill_eq_ok.2 ⟨hnone, word, hread, rfl⟩,
        by simpa [isPart, hkind] using hrest⟩
    · rw [if_neg hkind] at hput
      cases hput
      simp only [if_neg hkind, bind_eq_ok, mapError_eq_ok]
      exact ⟨v, hv, (kind, rest), hrest,
        by simp [isPart, List.filter_cons, hkind, pure, Except.pure]⟩

theorem readTagged_eq_ok {members : List (Tree × Tree)} {found kind : Option TypeKind}
    {parts : List (String × Value)} :
    readTagged depth found members = .ok (kind, parts) ↔
      ∃ ms, List.Forall₂ (fun m m' => memberValue depth m = .ok m') members ms ∧
        ms.foldlM (fun found m => kindPut wordKind found m.1 m.2) found = .ok kind ∧
        ms.filter isPart = parts := by
  induction members generalizing found parts with
  | nil =>
      simp only [readTagged, List.forall₂_nil_left_iff, exists_eq_left, List.foldlM_nil,
        Except.ok.injEq, Prod.mk.injEq, List.filter_nil, pure, Except.pure]
  | cons member members ih =>
      obtain ⟨key, tree⟩ := member
      simp only [readTagged_cons_eq_ok, ih, List.forall₂_cons_left_iff]
      constructor
      · rintro ⟨m, next, _, hm, hput, ⟨ms, hms, hfold, rfl⟩, rfl⟩
        exact ⟨m :: ms, ⟨m, ms, hm, hms, rfl⟩, foldlM_cons_ok.2 ⟨next, hput, hfold⟩,
          (List.filter_append [m] ms).trans rfl⟩
      · rintro ⟨_, ⟨m, ms, hm, hms, rfl⟩, hfold, rfl⟩
        obtain ⟨next, hput, hrest⟩ := foldlM_cons_ok.1 hfold
        exact ⟨m, next, _, hm, hput, ⟨ms, hms, hrest, rfl⟩, (List.filter_append [m] ms).symm⟩

theorem required_eq_ok {found : Option TypeKind} {kind : TypeKind} :
    required kindField found = .ok kind ↔ kindFound found = .ok kind := by
  cases found <;> simp [required, kindFound]

theorem readType_eq_ok {type : DartType} :
    readType depth tree = .ok type ↔
      ∃ v, tree.value depth = .ok v ∧ typeBy wordKind v = .ok (some type) := by
  match tree with
  | .object members fault =>
      simp only [readType, liftText, liftData, bind_eq_ok, mapError_eq_ok, value_object_eq_ok]
      constructor
      · rintro ⟨inner, hinner, ⟨found, parts⟩, htagged, _, hclosing, kind, hkind, htype⟩
        obtain ⟨ms, hms, hfold, rfl⟩ := readTagged_eq_ok.1 htagged
        rw [typeOfMembers_filter] at htype
        refine ⟨.object ms, ⟨inner, ms, hinner, hms, hclosing, rfl⟩, ?_⟩
        exact bind_eq_ok.2 ⟨kind, bind_eq_ok.2 ⟨found, hfold, required_eq_ok.1 hkind⟩,
          bind_pure_eq_ok.2 ⟨type, htype, rfl⟩⟩
      · rintro ⟨_, ⟨inner, ms, hinner, hms, hclosing, rfl⟩, htype⟩
        obtain ⟨kind, hkind, htype⟩ := bind_eq_ok.1 htype
        obtain ⟨found, hfold, hkind⟩ := bind_eq_ok.1 hkind
        obtain ⟨type, htype, ⟨⟩⟩ := bind_pure_eq_ok.1 htype
        rw [← typeOfMembers_filter] at htype
        exact ⟨inner, hinner, (found, _), readTagged_eq_ok.2 ⟨ms, hms, hfold, rfl⟩, (), hclosing,
          kind, required_eq_ok.2 hkind, htype⟩
  | .array [] fault =>
      simp only [readType, liftText, bind_eq_ok, mapError_eq_ok, value_array_eq_ok,
        List.forall₂_nil_left_iff]
      constructor
      · rintro ⟨_, -, _, -, ⟨⟩⟩
      · rintro ⟨_, ⟨_, _, -, rfl, -, rfl⟩, ⟨⟩⟩
  | .array (first :: items) fault =>
      simp only [readType, liftText, liftData, bind_eq_ok, mapError_eq_ok, value_array_eq_ok,
        List.forall₂_cons_left_iff, values_eq_mapM, mapM_eq_ok]
      constructor
      · rintro ⟨inner, hinner, kind, hkind, vs, hvs, _, hclosing, htype⟩
        obtain ⟨v, hv, hkind⟩ := readTypeKind_eq_ok.1 hkind
        refine ⟨.array (v :: vs),
          ⟨inner, v :: vs, hinner, ⟨v, vs, hv, hvs, rfl⟩, hclosing, rfl⟩, ?_⟩
        exact bind_eq_ok.2 ⟨kind, hkind, bind_pure_eq_ok.2 ⟨type, htype, rfl⟩⟩
      · rintro ⟨_, ⟨inner, _, hinner, ⟨v, vs, hv, hvs, rfl⟩, hclosing, rfl⟩, htype⟩
        obtain ⟨kind, hkind, htype⟩ := bind_eq_ok.1 htype
        obtain ⟨type, htype, ⟨⟩⟩ := bind_pure_eq_ok.1 htype
        exact ⟨inner, hinner, kind, readTypeKind_eq_ok.2 ⟨v, hv, hkind⟩, vs, hvs, (), hclosing,
          htype⟩
  | .absent | .broken _ | .brokenNumber _ | .null | .bool _ =>
      constructor
      · rintro ⟨⟩
      · rintro ⟨v, ⟨⟩, ⟨⟩⟩
  | .number _ | .string _ =>
      constructor
      · rintro ⟨⟩
      · rintro ⟨v, hv, htype⟩
        obtain ⟨_, -, ⟨⟩⟩ := bind_pure_eq_ok.1 hv
        cases htype

theorem Rewrite.readType {tree' : Tree} {type : DartType} (h : Rewrite .type tree tree')
    (hread : readType depth tree = .ok type) : Document.readType depth tree' = .ok type := by
  obtain ⟨v, hv, htype⟩ := readType_eq_ok.1 hread
  obtain ⟨v', hv', hagree⟩ := h.value hv
  exact readType_eq_ok.2 ⟨v', hv', hagree (.type scalarOnly_wordKind) htype⟩

end ActionWiring.Document
