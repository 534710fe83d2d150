import Mathlib.Data.List.Nodup
import ActionWiring.Proofs.FieldSelection

namespace ActionWiring

section

variable {ι ε α : Type} (chosen : ι → Except ε Bool) (result : ι → Except ε α)

def Passes (i : ι) : Prop :=
  ∃ b, chosen i = .ok b ∧ (b = true → ∃ r, result i = .ok r)

def StopsWith (i : ι) (cause : ε) : Prop :=
  chosen i = .error cause ∨ chosen i = .ok true ∧ result i = .error cause

def FirstStop (is : List ι) (k : Nat) (cause : ε) : Prop :=
  (∃ i, is[k]? = some i ∧ StopsWith chosen result i cause) ∧
    ∀ j < k, ∀ i, is[j]? = some i → Passes chosen result i

def stop? (i : ι) : Option ε :=
  match chosen i with
  | .error cause => some cause
  | .ok false => none
  | .ok true => failure? (result i)

variable {chosen result} {is : List ι} {cause : ε}

theorem stop?_eq_some_iff {i : ι} :
    stop? chosen result i = some cause ↔ StopsWith chosen result i cause := by
  cases h : chosen i with
  | error e => simp [stop?, StopsWith, h]
  | ok b =>
      cases b with
      | false => simp [stop?, StopsWith, h]
      | true => simp [stop?, StopsWith, h, failure?_eq_some_iff]

theorem stop?_eq_none_iff {i : ι} : stop? chosen result i = none ↔ Passes chosen result i := by
  cases h : chosen i with
  | error e => simp [stop?, Passes, h]
  | ok b =>
      cases b with
      | false => simp [stop?, Passes, h]
      | true => simp [stop?, Passes, h, failure?_eq_none_iff]

theorem failure?_select :
    failure? (select chosen result is) = is.findSome? (stop? chosen result) := by
  induction is with
  | nil => rfl
  | cons i is ih =>
      rw [select, List.findSome?_cons, ← ih]
      cases h : chosen i with
      | error e => simp only [stop?, h]; rfl
      | ok b =>
          cases b with
          | false => simp only [stop?, h]; rfl
          | true =>
              simp only [stop?, h]
              cases result i with
              | error e => rfl
              | ok r => exact failure?_bind_pure (select chosen result is) _

theorem select_eq_error_iff :
    select chosen result is = .error cause ↔ ∃ k, FirstStop chosen result is k cause := by
  rw [← failure?_eq_some_iff, failure?_select, findSome?_eq_some_iff_least]
  simp only [stop?_eq_some_iff, stop?_eq_none_iff, FirstStop]
  constructor
  · rintro ⟨k, i, hi, hstop, before⟩
    exact ⟨k, ⟨i, hi, hstop⟩, before⟩
  · rintro ⟨k, ⟨i, hi, hstop⟩, before⟩
    exact ⟨k, i, hi, hstop, before⟩

theorem exists_firstStop_iff :
    (∃ cause, ∃ k, FirstStop chosen result is k cause) ↔
      ∃ (k : Nat) (i : ι) (cause : ε), is[k]? = some i ∧ StopsWith chosen result i cause := by
  constructor
  · rintro ⟨cause, k, ⟨i, hi, hstop⟩, -⟩
    exact ⟨k, i, cause, hi, hstop⟩
  · rintro ⟨k, i, cause, hi, hstop⟩
    obtain ⟨first, hfirst⟩ := exists_findSome?_of_mem (List.mem_of_getElem? hi)
      (stop?_eq_some_iff.2 hstop)
    rw [← failure?_select, failure?_eq_some_iff] at hfirst
    exact ⟨first, select_eq_error_iff.1 hfirst⟩

theorem select_eq_ok_iff_passes {rs : List α} :
    select chosen result is = .ok rs ↔ (∀ i ∈ is, Passes chosen result i) ∧
      List.Forall₂ (fun i r => result i = .ok r) (is.filter (accepts chosen)) rs := by
  constructor
  · intro h
    exact ⟨select_ok_iff.1 ⟨rs, h⟩, (select_eq_ok_iff.1 h).2⟩
  · rintro ⟨hpass, hresults⟩
    refine select_eq_ok_iff.2 ⟨fun i hi => ?_, hresults⟩
    obtain ⟨b, hb, -⟩ := hpass i hi
    exact ⟨b, hb⟩

theorem FirstStop.congr {chosen' : ι → Except ε Bool} {result' : ι → Except ε α} {k : Nat}
    (h : FirstStop chosen result is k cause)
    (same : ∀ j ≤ k, ∀ i, is[j]? = some i →
      chosen' i = chosen i ∧ (chosen i = .ok true → result' i = result i)) :
    FirstStop chosen' result' is k cause := by
  obtain ⟨⟨i, hi, hstop⟩, before⟩ := h
  refine ⟨⟨i, hi, ?_⟩, fun j hj i' hi' => ?_⟩
  · obtain ⟨hchosen, hresult⟩ := same k (Nat.le_refl k) i hi
    rcases hstop with hfail | ⟨htrue, hfail⟩
    · exact .inl (hchosen.trans hfail)
    · exact .inr ⟨hchosen.trans htrue, (hresult htrue).trans hfail⟩
  · obtain ⟨hchosen, hresult⟩ := same j (Nat.le_of_lt hj) i' hi'
    obtain ⟨b, hb, hpass⟩ := before j hj i' hi'
    refine ⟨b, hchosen.trans hb, fun htrue => ?_⟩
    obtain ⟨r, hr⟩ := hpass htrue
    exact ⟨r, (hresult (htrue ▸ hb)).trans hr⟩

end

namespace OwnedField

def tested (chosen : Field → Except PlanError Bool) (f : OwnedField) : Except PlanError Bool :=
  chosen f.field

def turned {α : Type} (result : Declaration → Field → Except PlanError α) (f : OwnedField) :
    Except PlanError α :=
  result f.owner f.field

def places (ds : List Declaration) : List (String × Nat) :=
  ds.flatMap fun d => (List.range d.fields.length).map fun i => (d.name, i)

def StandsAt (place : String × Nat) (f : OwnedField) : Prop :=
  f.owner.name = place.1 ∧ f.owner.fields[place.2]? = some f.field

theorem places_cons (d : Declaration) (ds : List Declaration) :
    places (d :: ds) = ((List.range d.fields.length).map fun i => (d.name, i)) ++ places ds :=
  List.flatMap_cons

theorem ofDeclarations_cons (d : Declaration) (ds : List Declaration) :
    ofDeclarations (d :: ds) = d.fields.map (OwnedField.mk d) ++ ofDeclarations ds :=
  List.flatMap_cons

theorem standsAt_places (ds : List Declaration) :
    List.Forall₂ StandsAt (places ds) (ofDeclarations ds) := by
  induction ds with
  | nil => exact .nil
  | cons d ds ih =>
      rw [places_cons, ofDeclarations_cons]
      refine List.rel_append ?_ ih
      rw [List.forall₂_map_left_iff, List.forall₂_map_right_iff, List.forall₂_iff_get]
      refine ⟨List.length_range, fun i hi hf => ⟨rfl, ?_⟩⟩
      simp

theorem nodup_places {ds : List Declaration} (distinct : (ds.map Declaration.name).Nodup) :
    (places ds).Nodup := by
  induction ds with
  | nil => exact .nil
  | cons d ds ih =>
      rw [List.map_cons, List.nodup_cons] at distinct
      rw [places_cons, List.nodup_append']
      refine ⟨?_, ih distinct.2, ?_⟩
      · exact List.nodup_range.map fun i j h => (Prod.mk.inj h).2
      · intro place hd hds
        obtain ⟨i, -, rfl⟩ := List.mem_map.1 hd
        obtain ⟨e, he, hplace⟩ := List.mem_flatMap.1 hds
        obtain ⟨j, -, hname⟩ := List.mem_map.1 hplace
        exact distinct.1 ((Prod.mk.inj hname).1 ▸ List.mem_map_of_mem he)

theorem filter_own (d : Declaration) (p : Field → Bool) (name : String) :
    ((d.fields.map (OwnedField.mk d)).filter fun f => p f.field).filter
        (fun f => f.owner.name == name) =
      if d.name = name then (d.fields.filter p).map (OwnedField.mk d) else [] := by
  rw [List.filter_map, List.filter_map]
  by_cases h : d.name = name
  · simp [Function.comp_def, h]
  · simp [Function.comp_def, h]

theorem filter_foreign {ds : List Declaration} {name : String} (p : Field → Bool)
    (h : name ∉ ds.map Declaration.name) :
    ((ofDeclarations ds).filter fun f => p f.field).filter (fun f => f.owner.name == name) = [] := by
  refine List.filter_eq_nil_iff.2 fun f hf hname => ?_
  have howner := (mem_ofDeclarations.1 (List.mem_filter.1 hf).1).1
  exact h (List.mem_map.2 ⟨f.owner, howner, by simpa using hname⟩)

theorem filter_owner {ds : List Declaration} (distinct : (ds.map Declaration.name).Nodup)
    (p : Field → Bool) {owner : Declaration} (howner : owner ∈ ds) :
    ((ofDeclarations ds).filter fun f => p f.field).filter (fun f => f.owner.name == owner.name) =
      (owner.fields.filter p).map (OwnedField.mk owner) := by
  induction ds with
  | nil => cases howner
  | cons d ds ih =>
      rw [List.map_cons, List.nodup_cons] at distinct
      rw [ofDeclarations_cons, List.filter_append, List.filter_append, filter_own]
      rcases List.mem_cons.1 howner with rfl | howner
      · rw [if_pos rfl, filter_foreign p distinct.1, List.append_nil]
      · have hne : d.name ≠ owner.name := fun h =>
          distinct.1 (h ▸ List.mem_map_of_mem howner)
        rw [if_neg hne, List.nil_append, ih distinct.2 howner]

end OwnedField

namespace CompilationUnit

open OwnedField

variable {u : CompilationUnit} {d : Declaration} {found : List Declaration} {α : Type}
variable {chosen : Field → Except PlanError Bool}
variable {result : Declaration → Field → Except PlanError α}

theorem gather_of_unfound {cause : DeclarationError}
    (h : u.transitiveSupertypes d = .error cause) :
    u.gather d chosen result = .error (.model cause) := by
  rw [gather, fieldsOf, h]
  rfl

theorem gather_of_found (h : u.transitiveSupertypes d = .ok found) :
    u.gather d chosen result =
      select (tested chosen) (turned result) (ofDeclarations (d :: found)) := by
  rw [gather, fieldsOf, h]
  rfl

theorem fieldsWhere_eq_ok_iff (h : u.transitiveSupertypes d = .ok found)
    {matched : List OwnedField} :
    u.fieldsWhere d chosen = .ok matched ↔
      (∀ f ∈ ofDeclarations (d :: found), ∃ b, tested chosen f = .ok b) ∧
        matched = (ofDeclarations (d :: found)).filter (accepts (tested chosen)) := by
  have hself : ∀ f r : OwnedField,
      turned (fun owner field => .ok ⟨owner, field⟩) f = .ok r ↔ r = id f :=
    fun f r => ⟨fun h => (Except.ok.inj h).symm, fun h => h ▸ rfl⟩
  rw [fieldsWhere, gather_of_found h, select_eq_ok_iff,
    forall₂_iff_eq_map fun f _ r => hself f r, List.map_id]

theorem gather_eq_ok_iff_matched (h : u.transitiveSupertypes d = .ok found) {rs : List α} :
    u.gather d chosen result = .ok rs ↔
      ∃ matched, u.fieldsWhere d chosen = .ok matched ∧
        List.Forall₂ (fun f r => turned result f = .ok r) matched rs := by
  simp only [gather_of_found h, select_eq_ok_iff, fieldsWhere_eq_ok_iff h]
  constructor
  · rintro ⟨htests, hresults⟩
    exact ⟨_, ⟨htests, rfl⟩, hresults⟩
  · rintro ⟨_, ⟨htests, rfl⟩, hresults⟩
    exact ⟨htests, hresults⟩

theorem distinct_of_found (h : u.transitiveSupertypes d = .ok found) :
    ((d :: found).map Declaration.name).Nodup := by
  have l := listsAbove_of_ok h
  exact List.nodup_cons.2 ⟨l.foreign, l.distinct⟩

theorem filter_owner_of_fieldsWhere (h : u.transitiveSupertypes d = .ok found)
    {matched : List OwnedField} (hmatched : u.fieldsWhere d chosen = .ok matched)
    {owner : Declaration} (howner : owner = d ∨ u.Above d owner) :
    matched.filter (fun f => f.owner.name == owner.name) =
      (owner.fields.filter (accepts chosen)).map (OwnedField.mk owner) := by
  obtain ⟨-, rfl⟩ := (fieldsWhere_eq_ok_iff h).1 hmatched
  have hmem : owner ∈ d :: found := by
    rcases howner with rfl | habove
    · exact List.mem_cons_self
    · exact List.mem_cons_of_mem _ (((listsAbove_of_ok h).mem_iff owner).2 habove)
  exact filter_owner (distinct_of_found h) (accepts chosen) hmem

-- Least failures are told over visits, not over fields: a field that is declared twice is visited
-- twice. What lies behind the first failure may fail or not, and is without effect.
theorem gather_outcomes (u : CompilationUnit) (d : Declaration)
    (chosen : Field → Except PlanError Bool) (result : Declaration → Field → Except PlanError α) :
    (∀ cause, u.transitiveSupertypes d = .error cause →
      u.gather d chosen result = .error (.model cause)) ∧
    ∀ found fields, u.transitiveSupertypes d = .ok found →
      fields = ofDeclarations (d :: found) →
      List.Forall₂ StandsAt (places (d :: found)) fields ∧ (places (d :: found)).Nodup ∧
      ((∃ cause, u.gather d chosen result = .error cause) ↔
        ∃ (k : Nat) (f : OwnedField) (cause : PlanError),
          fields[k]? = some f ∧ StopsWith (tested chosen) (turned result) f cause) ∧
      (∀ cause, u.gather d chosen result = .error cause ↔
        ∃ k, FirstStop (tested chosen) (turned result) fields k cause) ∧
      (∀ k cause, FirstStop (tested chosen) (turned result) fields k cause →
        ∀ chosen' (result' : Declaration → Field → Except PlanError α),
          (∀ j ≤ k, ∀ f, fields[j]? = some f → tested chosen' f = tested chosen f ∧
            (tested chosen f = .ok true → turned result' f = turned result f)) →
          u.gather d chosen' result' = .error cause) ∧
      (∀ rs, u.gather d chosen result = .ok rs ↔
        (∀ f ∈ fields, Passes (tested chosen) (turned result) f) ∧
          List.Forall₂ (fun f r => turned result f = .ok r)
            (fields.filter (accepts (tested chosen))) rs) ∧
      (∀ rs, u.gather d chosen result = .ok rs ↔
        ∃ matched, u.fieldsWhere d chosen = .ok matched ∧
          List.Forall₂ (fun f r => turned result f = .ok r) matched rs) ∧
      ∀ matched, u.fieldsWhere d chosen = .ok matched →
        ∀ owner, owner = d ∨ u.Above d owner →
          matched.filter (fun f => f.owner.name == owner.name) =
            (owner.fields.filter (accepts chosen)).map (OwnedField.mk owner) := by
  refine ⟨fun cause => gather_of_unfound, ?_⟩
  rintro found fields h rfl
  have hgather : u.gather d chosen result =
      select (tested chosen) (turned result) (ofDeclarations (d :: found)) := gather_of_found h
  refine ⟨standsAt_places _, nodup_places (distinct_of_found h), ?_, ?_, ?_, ?_,
    fun rs => gather_eq_ok_iff_matched h, ?_⟩
  · simp only [hgather, select_eq_error_iff, exists_firstStop_iff]
  · simp only [hgather, select_eq_error_iff, implies_true]
  · intro k cause hfirst chosen' result' same
    rw [gather_of_found h, select_eq_error_iff]
    exact ⟨k, hfirst.congr same⟩
  · intro rs
    rw [hgather]
    exact select_eq_ok_iff_passes
  · intro matched hmatched owner howner
    exact filter_owner_of_fieldsWhere h hmatched howner

def dialog : Declaration where
  name := "Dialog"
  fields := [⟨"title", .named "String"⟩, ⟨"close", .named "Action"⟩]
  supertypes := ["Window", "Pane"]

def dialogWindow : Declaration where
  name := "Window"
  fields := [⟨"close", .named "Action"⟩]
  supertypes := ["Frame"]

def dialogPane : Declaration where
  name := "Pane"
  supertypes := ["Frame"]

def dialogFrame : Declaration where
  name := "Frame"
  fields := [⟨"close", .generic .parameterized "Action" [.free "T"] []⟩]

def dialogUnit : CompilationUnit := ofLists [dialog, dialogPane] [dialogFrame, dialogWindow]

def isAction (f : Field) : Except PlanError Bool := .ok (f.type.name? == some "Action")

def actionArguments (_ : Declaration) (f : Field) : Except PlanError (List String) :=
  liftTypes f.type.argumentTexts

theorem gather_outcomes_dialog :
    dialogUnit.transitiveSupertypes dialog = .ok [dialogWindow, dialogFrame, dialogPane] ∧
      dialogUnit.gather dialog isAction actionArguments = .error (.misaligned ⟨"Action", 1, 0⟩) ∧
      (∃ matched, dialogUnit.fieldsWhere dialog isAction = .ok matched ∧
        matched.map (fun f => f.owner.name) = ["Dialog", "Window", "Frame"] ∧
        matched.filter (fun f => f.owner.name == "Frame") =
          dialogFrame.fields.map (OwnedField.mk dialogFrame)) ∧
      empty.transitiveSupertypes dialogWindow = .error (.unknownSupertype "Window" "Frame") ∧
      empty.gather dialogWindow isAction actionArguments =
        .error (.model (.unknownSupertype "Window" "Frame")) := by
  have hfound : dialogUnit.transitiveSupertypes dialog =
      .ok [dialogWindow, dialogFrame, dialogPane] := transitiveSupertypes_eq_of_runWithin 20 rfl
  have hunknown : empty.transitiveSupertypes dialogWindow =
      .error (.unknownSupertype "Window" "Frame") := transitiveSupertypes_eq_of_runWithin 20 rfl
  have hframe : dialogUnit.Above dialog dialogFrame :=
    ((listsAbove_of_ok hfound).mem_iff dialogFrame).1 (by simp)
  have hfirst : FirstStop (tested isAction) (turned actionArguments)
      (ofDeclarations [dialog, dialogWindow, dialogFrame, dialogPane]) 3
      (.misaligned ⟨"Action", 1, 0⟩) := by
    refine ⟨⟨_, rfl, .inr ⟨rfl, rfl⟩⟩, fun j hj f hf => ?_⟩
    match j with
    | 0 =>
        cases hf
        exact ⟨false, rfl, fun h => nomatch h⟩
    | 1 | 2 =>
        cases hf
        exact ⟨true, rfl, fun _ => ⟨_, rfl⟩⟩
  obtain ⟨-, -, -, hstop, -, -, -, howned⟩ :=
    (gather_outcomes dialogUnit dialog isAction actionArguments).2 _ _ hfound rfl
  obtain ⟨hbroken, -⟩ := gather_outcomes empty dialogWindow isAction actionArguments
  have hmatched : dialogUnit.fieldsWhere dialog isAction = .ok
      ((ofDeclarations [dialog, dialogWindow, dialogFrame, dialogPane]).filter
        (accepts (tested isAction))) :=
    (fieldsWhere_eq_ok_iff hfound).2 ⟨fun f _ => ⟨_, rfl⟩, rfl⟩
  exact ⟨hfound, (hstop _).2 ⟨3, hfirst⟩,
    ⟨_, hmatched, rfl, howned _ hmatched dialogFrame (.inr hframe)⟩, hunknown, hbroken _ hunknown⟩

end CompilationUnit

end ActionWiring
