import ActionWiring.Hierarchy
import ActionWiring.Proofs.Outcomes
import ActionWiring.Proofs.Pointwise
import ActionWiring.Proofs.SupertypeWalk

namespace ActionWiring

section

variable {ι ε α : Type} {chosen : ι → Except ε Bool} {result : ι → Except ε α}

def accepts (chosen : ι → Except ε Bool) (i : ι) : Bool :=
  match chosen i with
  | .ok b => b
  | .error _ => false

theorem accepts_of_ok {i : ι} {b : Bool} (h : chosen i = .ok b) : accepts chosen i = b := by
  rw [accepts, h]

theorem accepts_iff {i : ι} : accepts chosen i = true ↔ chosen i = .ok true := by
  cases h : chosen i with
  | ok b => simp [accepts_of_ok h]
  | error e => simp [accepts, h]

theorem filter_accepts {P : ι → Prop} [DecidablePred P] {is : List ι}
    (tests : ∀ i ∈ is, ∃ b, chosen i = .ok b)
    (means : ∀ i b, chosen i = .ok b → (P i ↔ b = true)) :
    is.filter (accepts chosen) = is.filter fun i => P i := by
  refine List.filter_congr fun i hi => ?_
  obtain ⟨b, hb⟩ := tests i hi
  rw [accepts_of_ok hb, Bool.eq_iff_iff, decide_eq_true_iff]
  exact (means i b hb).symm

theorem select_cons_eq_ok {i : ι} {is : List ι} {rs : List α} :
    select chosen result (i :: is) = .ok rs ↔
      (chosen i = .ok false ∧ select chosen result is = .ok rs) ∨
      (chosen i = .ok true ∧ ∃ r rest, result i = .ok r ∧ select chosen result is = .ok rest ∧
        r :: rest = rs) := by
  rw [select, bind_eq_ok]
  constructor
  · rintro ⟨b, hb, hrest⟩
    cases b with
    | false => exact .inl ⟨hb, hrest⟩
    | true =>
        obtain ⟨r, hr, hrest⟩ := bind_eq_ok.1 hrest
        obtain ⟨rest, hs, rfl⟩ := bind_pure_eq_ok.1 hrest
        exact .inr ⟨hb, r, rest, hr, hs, rfl⟩
  · rintro (⟨hb, hs⟩ | ⟨hb, r, rest, hr, hs, rfl⟩)
    · exact ⟨false, hb, hs⟩
    · exact ⟨true, hb, bind_eq_ok.2 ⟨r, hr, bind_pure_eq_ok.2 ⟨rest, hs, rfl⟩⟩⟩

theorem select_eq_ok_iff {is : List ι} {rs : List α} :
    select chosen result is = .ok rs ↔
      (∀ i ∈ is, ∃ b, chosen i = .ok b) ∧
        List.Forall₂ (fun i r => result i = .ok r) (is.filter (accepts chosen)) rs := by
  induction is generalizing rs with
  | nil => simp [select, eq_comm]
  | cons i is ih =>
      rw [select_cons_eq_ok]
      constructor
      · rintro (⟨hb, hs⟩ | ⟨hb, r, rest, hr, hs, rfl⟩)
        · obtain ⟨htests, hresults⟩ := ih.1 hs
          refine ⟨List.forall_mem_cons.2 ⟨⟨false, hb⟩, htests⟩, ?_⟩
          rwa [List.filter_cons_of_neg (by simp [accepts_of_ok hb])]
        · obtain ⟨htests, hresults⟩ := ih.1 hs
          refine ⟨List.forall_mem_cons.2 ⟨⟨true, hb⟩, htests⟩, ?_⟩
          rw [List.filter_cons_of_pos (accepts_of_ok hb)]
          exact .cons hr hresults
      · rintro ⟨htests, hresults⟩
        obtain ⟨⟨b, hb⟩, htests⟩ := List.forall_mem_cons.1 htests
        cases b with
        | false =>
            rw [List.filter_cons_of_neg (by simp [accepts_of_ok hb])] at hresults
            exact .inl ⟨hb, ih.2 ⟨htests, hresults⟩⟩
        | true =>
            rw [List.filter_cons_of_pos (accepts_of_ok hb)] at hresults
            cases hresults with
            | cons hr hresults => exact .inr ⟨hb, _, _, hr, ih.2 ⟨htests, hresults⟩, rfl⟩

theorem select_keeps {chosen' : ι → Except ε Bool} {result' : ι → Except ε α} {is : List ι}
    {rs : List α} (tests : ∀ i b, chosen i = .ok b → chosen' i = .ok b)
    (results : ∀ i r, result i = .ok r → result' i = .ok r)
    (h : select chosen result is = .ok rs) : select chosen' result' is = .ok rs := by
  induction is generalizing rs with
  | nil => exact h
  | cons i is ih =>
      rw [select_cons_eq_ok] at h ⊢
      rcases h with ⟨hb, hs⟩ | ⟨hb, r, rest, hr, hs, rfl⟩
      · exact .inl ⟨tests i _ hb, ih hs⟩
      · exact .inr ⟨tests i _ hb, r, rest, results i r hr, ih hs, rfl⟩

theorem select_of_refused {is : List ι} (refused : ∀ i ∈ is, chosen i = .ok false) :
    select chosen result is = .ok [] := by
  refine select_eq_ok_iff.2 ⟨fun i hi => ⟨false, refused i hi⟩, ?_⟩
  rw [List.filter_eq_nil_iff.2 fun i hi => by simp [accepts_of_ok (refused i hi)]]
  exact .nil

theorem select_append_of_refused {is js : List ι} (refused : ∀ j ∈ js, chosen j = .ok false) :
    select chosen result (is ++ js) = select chosen result is := by
  induction is with
  | nil => exact select_of_refused refused
  | cons i is ih => rw [List.cons_append, select, select, ih]

theorem select_ok_iff {is : List ι} :
    (∃ rs, select chosen result is = .ok rs) ↔
      ∀ i ∈ is, ∃ b, chosen i = .ok b ∧ (b = true → ∃ r, result i = .ok r) := by
  simp only [select_eq_ok_iff, exists_and_left, exists_forall₂_iff, List.mem_filter, accepts_iff]
  constructor
  · rintro ⟨htests, hresults⟩ i hi
    obtain ⟨b, hb⟩ := htests i hi
    exact ⟨b, hb, fun htrue => hresults i ⟨hi, htrue ▸ hb⟩⟩
  · intro h
    refine ⟨fun i hi => ?_, fun i ⟨hi, htrue⟩ => ?_⟩
    · obtain ⟨b, hb, -⟩ := h i hi
      exact ⟨b, hb⟩
    · obtain ⟨b, hb, hresult⟩ := h i hi
      rw [htrue] at hb
      cases hb
      exact hresult rfl

end

namespace OwnedField

theorem mem_ofDeclarations {ds : List Declaration} {f : OwnedField} :
    f ∈ ofDeclarations ds ↔ f.owner ∈ ds ∧ f.field ∈ f.owner.fields := by
  simp only [ofDeclarations, List.mem_flatMap, List.mem_map]
  constructor
  · rintro ⟨e, he, g, hg, rfl⟩
    exact ⟨he, hg⟩
  · rintro ⟨he, hf⟩
    exact ⟨f.owner, he, f.field, hf, rfl⟩

theorem map_field_ofDeclarations (ds : List Declaration) :
    (ofDeclarations ds).map OwnedField.field = ds.flatMap Declaration.fields := by
  simp [ofDeclarations, List.map_flatMap, Function.comp_def]

end OwnedField

namespace CompilationUnit

variable {u : CompilationUnit} {d : Declaration} {α : Type}

def HasField (u : CompilationUnit) (d owner : Declaration) (f : Field) : Prop :=
  (owner = d ∨ u.Above d owner) ∧ f ∈ owner.fields

theorem fieldsOf_eq_ok_iff {fields : List OwnedField} :
    u.fieldsOf d = .ok fields ↔ ∃ found, u.transitiveSupertypes d = .ok found ∧
      OwnedField.ofDeclarations (d :: found) = fields :=
  bind_pure_eq_ok

theorem gather_eq_ok_iff {chosen : Field → Except PlanError Bool}
    {result : Declaration → Field → Except PlanError α} {rs : List α} :
    u.gather d chosen result = .ok rs ↔ ∃ found, u.transitiveSupertypes d = .ok found ∧
      select (fun f => chosen f.field) (fun f => result f.owner f.field)
        (OwnedField.ofDeclarations (d :: found)) = .ok rs := by
  simp only [gather, bind_eq_ok, liftDeclarations_eq_ok, fieldsOf_eq_ok_iff]
  constructor
  · rintro ⟨_, ⟨found, hfound, rfl⟩, hs⟩
    exact ⟨found, hfound, hs⟩
  · rintro ⟨found, hfound, hs⟩
    exact ⟨_, ⟨found, hfound, rfl⟩, hs⟩

theorem gather_eq_ok_iff_of_found {found : List Declaration}
    (hfound : u.transitiveSupertypes d = .ok found) {chosen : Field → Except PlanError Bool}
    {result : Field → Except PlanError α} {rs : List α} :
    u.gather d chosen (fun _ f => result f) = .ok rs ↔
      (∀ f ∈ (d :: found).flatMap Declaration.fields, ∃ b, chosen f = .ok b) ∧
        List.Forall₂ (fun f r => result f = .ok r)
          (((d :: found).flatMap Declaration.fields).filter (accepts chosen)) rs := by
  have hfound' : ∀ ds, u.transitiveSupertypes d = .ok ds ↔ found = ds := by
    intro ds
    rw [hfound, Except.ok.injEq]
  have haccepts : (accepts fun f : OwnedField => chosen f.field) =
      accepts chosen ∘ OwnedField.field := rfl
  simp only [gather_eq_ok_iff, hfound', exists_eq_left', select_eq_ok_iff,
    ← OwnedField.map_field_ofDeclarations, List.forall_mem_map, List.filter_map,
    List.forall₂_map_left_iff, haccepts]

theorem gather_ok_iff {chosen : Field → Except PlanError Bool}
    {result : Declaration → Field → Except PlanError α} (distinct : u.names.Nodup)
    (sound : u.SoundHierarchy d) :
    (∃ rs, u.gather d chosen result = .ok rs) ↔
      ∀ owner f, u.HasField d owner f →
        ∃ b, chosen f = .ok b ∧ (b = true → ∃ r, result owner f = .ok r) := by
  obtain ⟨found, hfound⟩ := (transitiveSupertypes_ok_iff distinct).2 sound
  have l := listsAbove_of_ok hfound
  have hfield : ∀ f : OwnedField,
      f ∈ OwnedField.ofDeclarations (d :: found) ↔ u.HasField d f.owner f.field := by
    intro f
    rw [OwnedField.mem_ofDeclarations, List.mem_cons, l.mem_iff, HasField]
  have hgather : ∀ rs, u.gather d chosen result = .ok rs ↔
      select (fun f => chosen f.field) (fun f => result f.owner f.field)
        (OwnedField.ofDeclarations (d :: found)) = .ok rs := by
    intro rs
    simp [gather_eq_ok_iff, hfound]
  simp only [hgather, select_ok_iff, hfield]
  exact ⟨fun h owner f => h ⟨owner, f⟩, fun h f => h f.owner f.field⟩

end CompilationUnit

end ActionWiring
