import ActionWiring.Proofs.Outcomes

namespace ActionWiring.DartType

mutual

def nodes : DartType → List DartType
  | .generic form name params args => .generic form name params args :: nodesAll args
  | .named name => [.named name]
  | .void => [.void]
  | .dynamic => [.dynamic]
  | .unresolved => [.unresolved]

def nodesAll : List DartType → List DartType
  | [] => []
  | type :: types => nodes type ++ nodesAll types

end

def misalignment? : DartType → Option Misalignment
  | .generic _ name params args =>
      if aligned params args then none else some ⟨name, params.length, args.length⟩
  | _ => none

mutual

theorem failure?_render (type : DartType) :
    failure? (render type) = type.nodes.findSome? misalignment? := by
  match type with
  | .named name => rfl
  | .void => rfl
  | .dynamic => rfl
  | .unresolved => rfl
  | .generic form name params args =>
      rw [nodes, List.findSome?_cons, misalignment?, render]
      by_cases h : aligned params args = true
      · rw [if_pos h, if_pos h, failure?_bind_pure]
        exact failure?_renderAll args
      · rw [if_neg h, if_neg h]
        rfl

theorem failure?_renderAll (types : List DartType) :
    failure? (renderAll types) = (nodesAll types).findSome? misalignment? := by
  match types with
  | [] => rfl
  | type :: types =>
      rw [nodesAll, List.findSome?_append, ← failure?_render type, ← failure?_renderAll types,
        renderAll]
      cases render type with
      | error m => rfl
      | ok text => exact failure?_bind_pure (renderAll types) _

end

theorem failure?_argumentTexts (type : DartType) :
    failure? type.argumentTexts = type.nodes.findSome? misalignment? := by
  match type with
  | .named name => rfl
  | .void => rfl
  | .dynamic => rfl
  | .unresolved => rfl
  | .generic form name params args =>
      rw [← failure?_render, render_generic]
      cases argumentTexts (.generic form name params args) with
      | error m => rfl
      | ok texts => rfl

def WellAligned (type : DartType) : Prop :=
  ∀ form name params args, .generic form name params args ∈ type.nodes → params ≠ [] →
    args.length = params.length

theorem aligned_iff {params : List TypeParameter} {args : List DartType} :
    aligned params args = true ↔ (params ≠ [] → args.length = params.length) := by
  cases params with
  | nil => simp [aligned]
  | cons p ps =>
      simp only [aligned, List.isEmpty_cons, Bool.false_or, beq_iff_eq]
      exact ⟨fun h _ => h.symm, fun h => (h (List.cons_ne_nil p ps)).symm⟩

def Misaligned (type : DartType) (m : Misalignment) : Prop :=
  ∃ form name params args, type = .generic form name params args ∧ params ≠ [] ∧
    params.length ≠ args.length ∧ m = ⟨name, params.length, args.length⟩

theorem misalignment?_eq_some_iff {type : DartType} {m : Misalignment} :
    type.misalignment? = some m ↔ type.Misaligned m := by
  constructor
  · intro h
    match type with
    | .generic form name params args =>
        rw [misalignment?] at h
        split at h
        · cases h
        · rename_i hunaligned
          cases h
          refine ⟨form, name, params, args, rfl, ?_, ?_, rfl⟩
          · rintro rfl
            exact hunaligned rfl
          · exact fun hlength => hunaligned (aligned_iff.2 fun _ => hlength.symm)
  · rintro ⟨form, name, params, args, rfl, hne, hlength, rfl⟩
    rw [misalignment?, if_neg fun h => hlength (aligned_iff.1 h hne).symm]

theorem misalignment?_eq_none_iff {type : DartType} :
    type.misalignment? = none ↔ ∀ m, ¬ type.Misaligned m := by
  simp only [Option.eq_none_iff_forall_ne_some, ne_eq, misalignment?_eq_some_iff]

theorem wellAligned_iff (type : DartType) :
    type.WellAligned ↔ type.nodes.findSome? misalignment? = none := by
  simp only [List.findSome?_eq_none_iff, misalignment?_eq_none_iff]
  constructor
  · rintro h _ hmem m ⟨form, name, params, args, rfl, hp, hlength, -⟩
    exact hlength (h form name params args hmem hp).symm
  · intro h form name params args hmem hp
    refine Decidable.byContradiction fun hlength => h _ hmem ⟨name, params.length, args.length⟩ ?_
    exact ⟨form, name, params, args, rfl, hp, fun heq => hlength heq.symm, rfl⟩

theorem render_ok_iff {type : DartType} : (∃ text, type.render = .ok text) ↔ type.WellAligned := by
  rw [← failure?_eq_none_iff, failure?_render, wellAligned_iff]

theorem argumentTexts_ok_iff {type : DartType} :
    (∃ texts, type.argumentTexts = .ok texts) ↔ type.WellAligned := by
  rw [← failure?_eq_none_iff, failure?_argumentTexts, wellAligned_iff]

end ActionWiring.DartType
