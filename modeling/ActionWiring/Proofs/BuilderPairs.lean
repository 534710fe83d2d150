import Mathlib.Data.List.Forall2
import ActionWiring.DartType
import ActionWiring.Proofs.Outcomes

namespace ActionWiring

def BoundBegins (head : String) (bound : Option DartType) : Prop :=
  ∃ name, bound.bind DartType.name? = some name ∧ head.toList <+: name.toList

namespace BoundRole

theorem ofBound_of_nameless {bound : Option DartType} (h : bound.bind DartType.name? = none) :
    ofBound bound = .other := by
  rw [ofBound, h]

theorem ofBound_of_name {bound : Option DartType} {name : String}
    (h : bound.bind DartType.name? = some name) : ofBound bound = ofName name := by
  rw [ofBound, h]

theorem ofName_eq_value_iff {name : String} :
    ofName name = .value ↔ "Value".toList <+: name.toList := by
  rw [← List.isPrefixOf_iff_prefix]
  change _ ↔ Naming.isValueBound name = true
  unfold ofName
  by_cases hv : Naming.isValueBound name = true
  · simp [hv]
  · by_cases hb : Naming.isBuilderBound name = true <;> simp [hv, hb]

theorem ofName_eq_builder_iff {name : String} :
    ofName name = .builder ↔ "Builder".toList <+: name.toList := by
  rw [← List.isPrefixOf_iff_prefix]
  change _ ↔ Naming.isBuilderBound name = true
  unfold ofName
  by_cases hv : Naming.isValueBound name = true
  · simp [hv, Naming.not_isBuilderBound_of_isValueBound hv]
  · by_cases hb : Naming.isBuilderBound name = true <;> simp [hv, hb]

theorem ofBound_eq_value_iff {bound : Option DartType} :
    ofBound bound = .value ↔ BoundBegins "Value" bound := by
  cases h : bound.bind DartType.name? with
  | none => simp [ofBound_of_nameless h, BoundBegins, h]
  | some name => simp [ofBound_of_name h, BoundBegins, h, ofName_eq_value_iff]

theorem ofBound_eq_builder_iff {bound : Option DartType} :
    ofBound bound = .builder ↔ BoundBegins "Builder" bound := by
  cases h : bound.bind DartType.name? with
  | none => simp [ofBound_of_nameless h, BoundBegins, h]
  | some name => simp [ofBound_of_name h, BoundBegins, h, ofName_eq_builder_iff]

end BoundRole

namespace BuilderSlots

variable {roles roles' : List BoundRole} {texts texts' : List String} {i j : Nat}

def pairAt (roles : List BoundRole) (i : Nat) : Prop :=
  roles[i]? = some .value ∧ roles[i + 1]? = some .builder

instance (roles : List BoundRole) (i : Nat) : Decidable (pairAt roles i) :=
  inferInstanceAs (Decidable (_ ∧ _))

theorem not_pairAt_succ (h : pairAt roles i) : ¬ pairAt roles (i + 1) := by
  intro hs
  have hrole : some BoundRole.builder = some .value := h.2.symm.trans hs.1
  cases hrole

def slotText (roles : List BoundRole) (texts : List String) : Nat → Option String
  | 0 => texts[0]?
  | i + 1 =>
      if pairAt roles i ∧ texts[i + 1]? = some Dart.dynamic then texts[i]?.map Naming.builderName
      else texts[i + 1]?

theorem slotText_of_pairAt (h : pairAt roles i) : slotText roles texts i = texts[i]? := by
  cases i with
  | zero => rfl
  | succ i =>
      have hprev : ¬ pairAt roles i := fun hp => not_pairAt_succ hp h
      rw [slotText, if_neg fun hc => hprev hc.1]

theorem getElem?_fillAt :
    (fillAt roles texts i)[j]? =
      if j = i + 1 ∧ pairAt roles i ∧ texts[i + 1]? = some Dart.dynamic then
        texts[i]?.map Naming.builderName
      else texts[j]? := by
  unfold fillAt
  split
  · rename_i value slot hvalue hbuilder htext hslot
    have hpair : pairAt roles i := ⟨hvalue, hbuilder⟩
    have hlt : i + 1 < texts.length := (List.getElem?_eq_some_iff.1 hslot).1
    by_cases hd : slot = Dart.dynamic
    · subst hd
      rw [if_pos rfl, List.getElem?_set]
      by_cases hj : i + 1 = j
      · subst hj
        rw [if_pos rfl, if_pos hlt, if_pos ⟨rfl, hpair, hslot⟩, htext, Option.map_some]
      · rw [if_neg hj, if_neg fun hc => hj hc.1.symm]
    · simp [hd, hslot]
  · rename_i hno
    split
    · rename_i hc
      obtain ⟨rfl, ⟨hvalue, hbuilder⟩, hslot⟩ := hc
      have hlt : i + 1 < texts.length := (List.getElem?_eq_some_iff.1 hslot).1
      have htext : texts[i]? = some texts[i] := List.getElem?_eq_getElem (by omega)
      exact absurd hslot (hno _ _ hvalue hbuilder htext)
    · rfl

theorem getElem?_foldl_fillAt (roles : List BoundRole) (texts : List String) (k j : Nat) :
    ((List.range k).foldl (fillAt roles) texts)[j]? =
      if j ≤ k then slotText roles texts j else texts[j]? := by
  induction k generalizing j with
  | zero =>
      cases j with
      | zero => rfl
      | succ j => simp
  | succ k ih =>
      rw [List.range_succ, List.foldl_append, List.foldl_cons, List.foldl_nil, getElem?_fillAt]
      have hnext : ((List.range k).foldl (fillAt roles) texts)[k + 1]? = texts[k + 1]? := by
        rw [ih, if_neg (by omega)]
      have hhere : ((List.range k).foldl (fillAt roles) texts)[k]? = slotText roles texts k := by
        rw [ih, if_pos (Nat.le_refl k)]
      rw [hnext, hhere, ih]
      by_cases hj : j = k + 1
      · subst hj
        by_cases hc : pairAt roles k ∧ texts[k + 1]? = some Dart.dynamic
        -- The slot read here begins a pair, so it does not end one and has not been filled.
        · rw [if_pos ⟨rfl, hc⟩, slotText_of_pairAt hc.1, if_pos (Nat.le_refl _), slotText, if_pos hc]
        · rw [if_neg fun h => hc h.2, if_neg (by omega), if_pos (Nat.le_refl _), slotText, if_neg hc]
      · rw [if_neg fun h => hj h.1]
        by_cases hle : j ≤ k
        · rw [if_pos hle, if_pos (by omega)]
        · rw [if_neg hle, if_neg (by omega)]

theorem getElem?_fill (roles : List BoundRole) (texts : List String) (j : Nat) :
    (fill roles texts)[j]? = slotText roles texts j := by
  rw [fill, getElem?_foldl_fillAt]
  by_cases hj : j ≤ texts.length - 1
  · rw [if_pos hj]
  · have hnone : texts[j]? = none := List.getElem?_eq_none (by omega)
    rw [if_neg hj, hnone]
    cases j with
    | zero => exact hnone.symm
    | succ j => simp [slotText, hnone]

theorem slotText_congr (hroles : ∀ i, i = j ∨ i + 1 = j → roles[i]? = roles'[i]?)
    (htexts : ∀ i, i = j ∨ i + 1 = j → texts[i]? = texts'[i]?) :
    slotText roles texts j = slotText roles' texts' j := by
  cases j with
  | zero => exact htexts 0 (.inl rfl)
  | succ i =>
      have hpair : pairAt roles i ↔ pairAt roles' i := by
        rw [pairAt, pairAt, hroles i (.inr rfl), hroles (i + 1) (.inl rfl)]
      simp only [slotText, hpair, htexts i (.inr rfl), htexts (i + 1) (.inl rfl)]

theorem builderName_ne_dynamic (value : String) : Naming.builderName value ≠ Dart.dynamic := by
  intro h
  have hlast : (value.toList ++ "Builder".toList).getLast? = "dynamic".toList.getLast? := by
    rw [← String.toList_append]
    exact congrArg (fun text : String => text.toList.getLast?) h
  simp at hlast

theorem slotText_ne_dynamic (h : pairAt roles i) :
    slotText roles texts (i + 1) ≠ some Dart.dynamic := by
  rw [slotText]
  by_cases hslot : texts[i + 1]? = some Dart.dynamic
  · rw [if_pos ⟨h, hslot⟩]
    cases texts[i]? with
    | none => simp
    | some value => simpa using builderName_ne_dynamic value
  · rwa [if_neg fun hc => hslot hc.2]

theorem fill_fill (roles : List BoundRole) (texts : List String) :
    fill roles (fill roles texts) = fill roles texts := by
  refine List.ext_getElem? fun j => ?_
  rw [getElem?_fill roles (fill roles texts)]
  cases j with
  | zero => rfl
  | succ i =>
      rw [slotText, if_neg]
      rintro ⟨hpair, hslot⟩
      rw [getElem?_fill] at hslot
      exact slotText_ne_dynamic hpair hslot

def Paired (bounds : List (Option DartType)) (i : Nat) : Prop :=
  (∃ bound, bounds[i]? = some bound ∧ BoundBegins "Value" bound) ∧
    ∃ bound, bounds[i + 1]? = some bound ∧ BoundBegins "Builder" bound

theorem pairAt_map_iff {bounds : List (Option DartType)} :
    pairAt (bounds.map BoundRole.ofBound) i ↔ Paired bounds i := by
  simp only [pairAt, Paired, List.getElem?_map, Option.map_eq_some_iff,
    BoundRole.ofBound_eq_value_iff, BoundRole.ofBound_eq_builder_iff]

open Classical in
theorem slotText_succ {bounds : List (Option DartType)} {value slot : String}
    (hvalue : texts[j]? = some value) (hslot : texts[j + 1]? = some slot) :
    slotText (bounds.map BoundRole.ofBound) texts (j + 1) =
      some (if Paired bounds j ∧ slot = "dynamic" then value ++ "Builder" else slot) := by
  have hfilled : pairAt (bounds.map BoundRole.ofBound) j ∧ texts[j + 1]? = some Dart.dynamic ↔
      Paired bounds j ∧ slot = "dynamic" := by
    rw [pairAt_map_iff, hslot, Option.some.injEq, Dart.dynamic]
  rw [slotText]
  by_cases hc : Paired bounds j ∧ slot = "dynamic"
  · rw [if_pos hc, if_pos (hfilled.2 hc), hvalue, Option.map_some, Naming.builderName]
  · rw [if_neg hc, if_neg (mt hfilled.1 hc), hslot]

end BuilderSlots

namespace DartType

open BuilderSlots

theorem renderAll_eq_ok_iff {types : List DartType} {texts : List String} :
    renderAll types = .ok texts ↔
      List.Forall₂ (fun type text => type.render = .ok text) types texts := by
  induction types generalizing texts with
  | nil => simp [renderAll, eq_comm]
  | cons type types ih =>
      rw [renderAll, bind_eq_ok]
      constructor
      · rintro ⟨text, htext, hbind⟩
        obtain ⟨rest, hrest, rfl⟩ := bind_pure_eq_ok.1 hbind
        exact .cons htext (ih.1 hrest)
      · intro h
        cases h with
        | cons htext hrest => exact ⟨_, htext, bind_pure_eq_ok.2 ⟨_, ih.2 hrest, rfl⟩⟩

theorem renderAll_named (texts : List String) : renderAll (texts.map .named) = .ok texts := by
  rw [renderAll_eq_ok_iff, List.forall₂_map_left_iff, List.forall₂_same]
  intro text _
  rw [render]

theorem boundedArgumentTexts_eq_ok_iff {typeName : String} {bounds : List (Option DartType)}
    {args : List DartType} {out : List String} :
    boundedArgumentTexts typeName bounds args = .ok out ↔ bounds.length = args.length ∧
      ∃ texts, List.Forall₂ (fun type text => type.render = .ok text) args texts ∧
        fill (bounds.map BoundRole.ofBound) texts = out := by
  unfold boundedArgumentTexts
  by_cases h : bounds.length = args.length
  · rw [if_pos h, bind_pure_eq_ok]
    simp only [renderAll_eq_ok_iff, h, true_and]
  · rw [if_neg h]
    simp [h]

theorem render_functional {args : List DartType} {texts texts' : List String}
    (h : List.Forall₂ (fun type text => type.render = .ok text) args texts)
    (h' : List.Forall₂ (fun type text => type.render = .ok text) args texts') :
    texts = texts' := by
  have hok := renderAll_eq_ok_iff.2 h
  rw [renderAll_eq_ok_iff.2 h', Except.ok.injEq] at hok
  exact hok.symm

open Classical in
theorem boundedArgumentTexts_pointwise (typeName : String) (bounds : List (Option DartType))
    (args : List DartType) (texts : List String) (equal : bounds.length = args.length)
    (written : List.Forall₂ (fun type text => type.render = .ok text) args texts) :
    ∃ out, boundedArgumentTexts typeName bounds args = .ok out ∧ out.length = texts.length ∧
      out[0]? = texts[0]? ∧
      (∀ j value slot, texts[j]? = some value → texts[j + 1]? = some slot →
        out[j + 1]? =
          some (if Paired bounds j ∧ slot = "dynamic" then value ++ "Builder" else slot)) ∧
      (∀ i, Paired bounds i →
        ((List.range i).foldl (fillAt (bounds.map BoundRole.ofBound)) texts)[i]? = texts[i]?) ∧
      (∀ typeName' bounds' args' texts' out',
        List.Forall₂ (fun type text => type.render = .ok text) args' texts' →
        boundedArgumentTexts typeName' bounds' args' = .ok out' →
        ∀ j, (∀ i, i = j ∨ i + 1 = j → bounds'[i]? = bounds[i]? ∧ texts'[i]? = texts[i]?) →
          out'[j]? = out[j]?) ∧
      (∀ j, Paired bounds j → out[j + 1]? ≠ some "dynamic") ∧
      boundedArgumentTexts typeName bounds (out.map .named) = .ok out := by
  have hlength : bounds.length = texts.length := equal.trans written.length_eq
  refine ⟨fill (bounds.map BoundRole.ofBound) texts,
    boundedArgumentTexts_eq_ok_iff.2 ⟨equal, texts, written, rfl⟩, length_fill _ _,
    getElem?_fill _ _ 0, ?_, ?_, ?_, ?_, ?_⟩
  · intro j value slot hvalue hslot
    rw [getElem?_fill, slotText_succ hvalue hslot]
  · intro i hpair
    rw [getElem?_foldl_fillAt, if_pos (Nat.le_refl i), slotText_of_pairAt (pairAt_map_iff.2 hpair)]
  · intro typeName' bounds' args' texts' out' written' h j same
    obtain ⟨-, texts'', written'', rfl⟩ := boundedArgumentTexts_eq_ok_iff.1 h
    cases render_functional written' written''
    rw [getElem?_fill, getElem?_fill]
    refine slotText_congr (fun i hi => ?_) fun i hi => (same i hi).2
    rw [List.getElem?_map, List.getElem?_map, (same i hi).1]
  · intro j hpair
    rw [getElem?_fill]
    exact slotText_ne_dynamic (pairAt_map_iff.2 hpair)
  · refine boundedArgumentTexts_eq_ok_iff.2
      ⟨?_, fill (bounds.map BoundRole.ofBound) texts, ?_, fill_fill _ _⟩
    · rw [List.length_map, length_fill, hlength]
    · exact renderAll_eq_ok_iff.1 (renderAll_named _)

def storeBounds : List (Option DartType) :=
  [some (.named "Value"), some (.generic .parameterized "ValueBuilder" [] [.void]),
    some (.named "Builder"), none]

theorem boundedArgumentTexts_pointwise_store :
    storeBounds.length = [DartType.named "Foo", .unresolved, .dynamic, .unresolved].length ∧
      ∃ out, boundedArgumentTexts "Store" storeBounds
          [.named "Foo", .unresolved, .dynamic, .unresolved] = .ok out ∧
        out = ["Foo", "dynamic", "dynamicBuilder", "dynamic"] ∧
        boundedArgumentTexts "Store" storeBounds (out.map .named) = .ok out := by
  have hwritten : renderAll [.named "Foo", .unresolved, .dynamic, .unresolved] =
      .ok ["Foo", "dynamic", "dynamic", "dynamic"] := by
    simp [renderAll, render, Dart.dynamic, bind, Except.bind, pure, Except.pure]
  obtain ⟨out, hout, -, -, -, -, -, -, hagain⟩ :=
    boundedArgumentTexts_pointwise "Store" storeBounds
      [.named "Foo", .unresolved, .dynamic, .unresolved] ["Foo", "dynamic", "dynamic", "dynamic"]
      rfl (renderAll_eq_ok_iff.1 hwritten)
  refine ⟨rfl, out, hout, ?_, hagain⟩
  obtain ⟨-, texts, htexts, rfl⟩ := boundedArgumentTexts_eq_ok_iff.1 hout
  rw [renderAll_eq_ok_iff.2 htexts, Except.ok.injEq] at hwritten
  rw [hwritten]
  decide

end DartType

end ActionWiring
