import ActionWiring.Proofs.BuilderPairs

namespace ActionWiring

inductive RenderStop where
  | misaligned (cause : Misalignment)
  | outOfRange (index length : Nat)
  deriving DecidableEq, Repr

namespace BuilderSlots

variable {bounds : List (Option DartType)} {texts : List String} {i : Nat}

def access {α : Type} (xs : List α) (i : Nat) : Except RenderStop α :=
  match xs[i]? with
  | some x => .ok x
  | none => .error (.outOfRange i xs.length)

theorem access_of_lt {α : Type} {xs : List α} (h : i < xs.length) : access xs i = .ok xs[i] := by
  rw [access, List.getElem?_eq_getElem h]

def checkedFillAt (bounds : List (Option DartType)) (texts : List String) (i : Nat) :
    Except RenderStop (List String) := do
  let first ← access bounds i
  let second ← access bounds (i + 1)
  let value ← access texts i
  let slot ← access texts (i + 1)
  if BoundRole.ofBound first = .value ∧ BoundRole.ofBound second = .builder ∧ slot = Dart.dynamic
  then return texts.set (i + 1) (Naming.builderName value)
  else return texts

def checkedFill (bounds : List (Option DartType)) (texts : List String) :
    Except RenderStop (List String) :=
  (List.range (texts.length - 1)).foldlM (checkedFillAt bounds) texts

theorem fillAt_of_lt {roles : List BoundRole} (hroles : i + 1 < roles.length)
    (htexts : i + 1 < texts.length) :
    fillAt roles texts i =
      if roles[i] = .value ∧ roles[i + 1] = .builder ∧ texts[i + 1] = Dart.dynamic then
        texts.set (i + 1) (Naming.builderName texts[i])
      else texts := by
  rw [fillAt, List.getElem?_eq_getElem (Nat.lt_of_succ_lt hroles), List.getElem?_eq_getElem hroles,
    List.getElem?_eq_getElem (Nat.lt_of_succ_lt htexts), List.getElem?_eq_getElem htexts]
  cases roles[i] with
  | value =>
      cases roles[i + 1] with
      | builder => simp
      | value => simp
      | other => simp
  | builder => simp
  | other => simp

theorem checkedFillAt_eq (hbounds : i + 1 < bounds.length) (htexts : i + 1 < texts.length) :
    checkedFillAt bounds texts i = .ok (fillAt (bounds.map BoundRole.ofBound) texts i) := by
  have hroles : i + 1 < (bounds.map BoundRole.ofBound).length := by rwa [List.length_map]
  rw [checkedFillAt, access_of_lt (Nat.lt_of_succ_lt hbounds), access_of_lt hbounds,
    access_of_lt (Nat.lt_of_succ_lt htexts), access_of_lt htexts, fillAt_of_lt hroles htexts,
    List.getElem_map, List.getElem_map]
  exact (apply_ite (Except.ok (ε := RenderStop)) _ _ _).symm

theorem foldlM_checkedFillAt (aligned : bounds.length = texts.length) {is : List Nat}
    (inside : ∀ i ∈ is, i + 1 < texts.length) :
    is.foldlM (checkedFillAt bounds) texts =
      .ok (is.foldl (fillAt (bounds.map BoundRole.ofBound)) texts) := by
  induction is generalizing texts with
  | nil => rfl
  | cons i is ih =>
      rw [List.forall_mem_cons] at inside
      have hlength := length_fillAt (bounds.map BoundRole.ofBound) texts i
      rw [List.foldlM_cons, checkedFillAt_eq (aligned ▸ inside.1) inside.1, List.foldl_cons]
      exact ih (hlength.symm ▸ aligned) fun j hj => hlength.symm ▸ inside.2 j hj

theorem checkedFill_eq (aligned : bounds.length = texts.length) :
    checkedFill bounds texts = .ok (fill (bounds.map BoundRole.ofBound) texts) := by
  refine foldlM_checkedFillAt aligned fun i hi => ?_
  rw [List.mem_range] at hi
  omega

end BuilderSlots

namespace DartType

mutual

def checkedRender : DartType → Except RenderStop String
  | .named name => .ok name
  | .generic _ name params args =>
      if params.isEmpty then do
        let texts ← checkedRenderAll args
        return applied name texts
      else if params.length = args.length then do
        let texts ← checkedRenderAll args
        let filled ← BuilderSlots.checkedFill (params.map TypeParameter.bound?) texts
        return applied name filled
      else .error (.misaligned ⟨name, params.length, args.length⟩)
  | .void => .ok Dart.void
  | .dynamic => .ok Dart.dynamic
  | .unresolved => .ok Dart.dynamic

def checkedRenderAll : List DartType → Except RenderStop (List String)
  | [] => .ok []
  | type :: types => do
      let text ← checkedRender type
      let texts ← checkedRenderAll types
      return text :: texts

end

def checkedArgumentTexts (typeName : String) (bounds : List (Option DartType))
    (args : List DartType) : Except RenderStop (List String) :=
  if bounds.length = args.length then do
    let texts ← checkedRenderAll args
    BuilderSlots.checkedFill bounds texts
  else .error (.misaligned ⟨typeName, bounds.length, args.length⟩)

theorem checkedFill_renderAll {bounds : List (Option DartType)} {args : List DartType}
    (aligned : bounds.length = args.length) :
    ((renderAll args).mapError RenderStop.misaligned >>= BuilderSlots.checkedFill bounds) =
      ((renderAll args).map (BuilderSlots.fill (bounds.map BoundRole.ofBound))).mapError
        RenderStop.misaligned := by
  cases h : renderAll args with
  | error m => rfl
  | ok texts =>
      have hlength : bounds.length = texts.length :=
        aligned.trans (renderAll_eq_ok_iff.1 h).length_eq
      exact BuilderSlots.checkedFill_eq hlength

mutual

theorem checkedRender_eq (type : DartType) :
    checkedRender type = (render type).mapError RenderStop.misaligned := by
  match type with
  | .named name => rw [checkedRender, render]; rfl
  | .void => rw [checkedRender, render]; rfl
  | .dynamic => rw [checkedRender, render]; rfl
  | .unresolved => rw [checkedRender, render]; rfl
  | .generic form name [] args =>
      rw [render_generic, checkedRender, argumentTexts, checkedRenderAll_eq args]
      cases renderAll args with
      | error m => rfl
      | ok texts => rfl
  | .generic form name (p :: ps) args =>
      rw [render_generic, checkedRender, argumentTexts, boundedArgumentTexts, List.length_map,
        checkedRenderAll_eq args]
      by_cases h : (p :: ps).length = args.length
      · have hbounds : ((p :: ps).map TypeParameter.bound?).length = args.length := by
          rwa [List.length_map]
        have hfill := checkedFill_renderAll hbounds
        simp only [List.isEmpty_cons, Bool.false_eq_true, if_false, if_pos h, ← bind_assoc, hfill]
        cases renderAll args with
        | error m => rfl
        | ok texts => rfl
      · simp only [List.isEmpty_cons, Bool.false_eq_true, if_false, if_neg h]
        rfl

theorem checkedRenderAll_eq (types : List DartType) :
    checkedRenderAll types = (renderAll types).mapError RenderStop.misaligned := by
  match types with
  | [] => rw [checkedRenderAll, renderAll]; rfl
  | type :: types =>
      rw [checkedRenderAll, renderAll, checkedRender_eq type, checkedRenderAll_eq types]
      cases render type with
      | error m => rfl
      | ok text =>
          cases renderAll types with
          | error m => rfl
          | ok texts => rfl

end

theorem checkedArgumentTexts_eq (typeName : String) (bounds : List (Option DartType))
    (args : List DartType) :
    checkedArgumentTexts typeName bounds args =
      (boundedArgumentTexts typeName bounds args).mapError RenderStop.misaligned := by
  rw [checkedArgumentTexts, boundedArgumentTexts, checkedRenderAll_eq]
  by_cases h : bounds.length = args.length
  · rw [if_pos h, if_pos h, checkedFill_renderAll h]
    cases renderAll args with
    | error m => rfl
    | ok texts => rfl
  · rw [if_neg h, if_neg h]
    rfl

end DartType

end ActionWiring
