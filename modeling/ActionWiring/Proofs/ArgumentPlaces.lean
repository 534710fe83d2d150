import ActionWiring.Proofs.Pointwise
import ActionWiring.Proofs.TypeAlignment

namespace ActionWiring.DartType

variable {β : Type} {f : DartType → Option β} {b : β}

def arguments : DartType → List DartType
  | .generic _ _ _ args => args
  | .named _ | .void | .dynamic | .unresolved => []

theorem sizeOf_lt_of_mem_arguments {type arg : DartType} (h : arg ∈ type.arguments) :
    sizeOf arg < sizeOf type := by
  match type with
  | .generic form name params args =>
      have hsize : sizeOf arg < sizeOf args := List.sizeOf_lt_of_mem h
      simp only [generic.sizeOf_spec]
      omega
  | .named _ | .void | .dynamic | .unresolved => cases h

@[elab_as_elim]
theorem induction_arguments {motive : DartType → Prop}
    (step : ∀ type, (∀ arg ∈ type.arguments, motive arg) → motive type) (type : DartType) :
    motive type :=
  step type fun arg _ => induction_arguments step arg
termination_by sizeOf type
decreasing_by exact sizeOf_lt_of_mem_arguments ‹_›

theorem nodes_eq (type : DartType) : type.nodes = type :: nodesAll type.arguments := by
  cases type with
  | generic form name params args => rfl
  | named name => rfl
  | void => rfl
  | dynamic => rfl
  | unresolved => rfl

def typeAt? : DartType → List Nat → Option DartType
  | type, [] => some type
  | type, i :: place => type.arguments[i]?.bind fun arg => arg.typeAt? place

theorem typeAt?_cons_eq_some_iff {type node : DartType} {i : Nat} {place : List Nat} :
    type.typeAt? (i :: place) = some node ↔
      ∃ arg, type.arguments[i]? = some arg ∧ arg.typeAt? place = some node := by
  rw [typeAt?, Option.bind_eq_some_iff]

theorem findSome?_nodesAll (f : DartType → Option β) (types : List DartType) :
    (nodesAll types).findSome? f = types.findSome? fun type => type.nodes.findSome? f := by
  induction types with
  | nil => rfl
  | cons type types ih =>
      rw [nodesAll, List.findSome?_append, ih, List.findSome?_cons]
      cases type.nodes.findSome? f with
      | none => rfl
      | some b => rfl

theorem mem_nodesAll {types : List DartType} {node : DartType} :
    node ∈ nodesAll types ↔ ∃ type ∈ types, node ∈ type.nodes := by
  induction types with
  | nil => simp [nodesAll]
  | cons type types ih => simp [nodesAll, ih]

theorem mem_nodes_iff {type node : DartType} :
    node ∈ type.nodes ↔ ∃ place, type.typeAt? place = some node := by
  induction type using induction_arguments with
  | step type ih =>
      rw [nodes_eq, List.mem_cons, mem_nodesAll]
      constructor
      · rintro (rfl | ⟨arg, harg, hnode⟩)
        · exact ⟨[], rfl⟩
        · obtain ⟨place, hplace⟩ := (ih arg harg).1 hnode
          obtain ⟨i, hi⟩ := List.mem_iff_getElem?.1 harg
          exact ⟨i :: place, typeAt?_cons_eq_some_iff.2 ⟨arg, hi, hplace⟩⟩
      · rintro ⟨place, hplace⟩
        cases place with
        | nil =>
            cases hplace
            exact .inl rfl
        | cons i place =>
            obtain ⟨arg, hi, hnode⟩ := typeAt?_cons_eq_some_iff.1 hplace
            have harg : arg ∈ type.arguments := List.mem_of_getElem? hi
            exact .inr ⟨arg, harg, (ih arg harg).2 ⟨place, hnode⟩⟩

def FirstAt (f : DartType → Option β) (type : DartType) (b : β) : Prop :=
  ∃ place node, type.typeAt? place = some node ∧ f node = some b ∧
    ∀ earlier < place, ∀ node', type.typeAt? earlier = some node' → f node' = none

theorem findSome?_nodes_eq_none_iff {type : DartType} :
    type.nodes.findSome? f = none ↔
      ∀ place node, type.typeAt? place = some node → f node = none := by
  rw [List.findSome?_eq_none_iff]
  constructor
  · intro h place node hnode
    exact h node (mem_nodes_iff.2 ⟨place, hnode⟩)
  · intro h node hnode
    obtain ⟨place, hplace⟩ := mem_nodes_iff.1 hnode
    exact h place node hplace

theorem firstAt_of_answer {type : DartType} {c : β} (h : f type = some c) :
    FirstAt f type b ↔ c = b := by
  constructor
  · rintro ⟨place, node, hnode, hb, before⟩
    cases place with
    | nil =>
        cases hnode
        exact Option.some.inj (h.symm.trans hb)
    | cons i place =>
        have hnone : f type = none := before [] (List.nil_lt_cons i place) type rfl
        rw [h] at hnone
        cases hnone
  · rintro rfl
    exact ⟨[], type, rfl, h, fun earlier hlt => absurd hlt (List.not_lt_nil earlier)⟩

theorem firstAt_of_none {type : DartType} (h : f type = none) :
    FirstAt f type b ↔
      ∃ (i : Nat) (arg : DartType), type.arguments[i]? = some arg ∧ FirstAt f arg b ∧
        ∀ j < i, ∀ other : DartType, type.arguments[j]? = some other →
          ∀ place node, other.typeAt? place = some node → f node = none := by
  constructor
  · rintro ⟨place, node, hnode, hb, before⟩
    cases place with
    | nil =>
        cases hnode
        rw [h] at hb
        cases hb
    | cons i place =>
        obtain ⟨arg, hi, hnode⟩ := typeAt?_cons_eq_some_iff.1 hnode
        refine ⟨i, arg, hi, ⟨place, node, hnode, hb, ?_⟩, ?_⟩
        · intro earlier hlt node' hnode'
          exact before (i :: earlier) (List.cons_lt_cons_iff.2 (.inr ⟨rfl, hlt⟩)) node'
            (typeAt?_cons_eq_some_iff.2 ⟨arg, hi, hnode'⟩)
        · intro j hj other hother place' node' hnode'
          exact before (j :: place') (List.cons_lt_cons_iff.2 (.inl hj)) node'
            (typeAt?_cons_eq_some_iff.2 ⟨other, hother, hnode'⟩)
  · rintro ⟨i, arg, hi, ⟨place, node, hnode, hb, before⟩, hothers⟩
    refine ⟨i :: place, node, typeAt?_cons_eq_some_iff.2 ⟨arg, hi, hnode⟩, hb, ?_⟩
    intro earlier hlt node' hnode'
    cases earlier with
    | nil =>
        cases hnode'
        exact h
    | cons j earlier =>
        obtain ⟨other, hj, hnode'⟩ := typeAt?_cons_eq_some_iff.1 hnode'
        rcases List.cons_lt_cons_iff.1 hlt with hji | ⟨hji, hrest⟩
        · exact hothers j hji other hj earlier node' hnode'
        · rw [hji, hi] at hj
          cases hj
          exact before earlier hrest node' hnode'

theorem findSome?_nodes_eq_some_iff {type : DartType} :
    type.nodes.findSome? f = some b ↔ FirstAt f type b := by
  induction type using induction_arguments with
  | step type ih =>
      rw [nodes_eq, List.findSome?_cons]
      cases h : f type with
      | some c => rw [firstAt_of_answer h, Option.some.injEq]
      | none =>
          rw [firstAt_of_none h, findSome?_nodesAll, findSome?_eq_some_iff_least]
          simp only [findSome?_nodes_eq_none_iff]
          constructor
          · rintro ⟨i, arg, hi, hb, before⟩
            exact ⟨i, arg, hi, (ih arg (List.mem_of_getElem? hi)).1 hb, before⟩
          · rintro ⟨i, arg, hi, hb, before⟩
            exact ⟨i, arg, hi, (ih arg (List.mem_of_getElem? hi)).2 hb, before⟩

end ActionWiring.DartType
