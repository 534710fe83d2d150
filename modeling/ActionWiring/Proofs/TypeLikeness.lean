import ActionWiring.Proofs.ArgumentPlaces
import ActionWiring.Proofs.BuilderPairs

namespace ActionWiring

namespace TypeParameter

def SameBoundName (p q : TypeParameter) : Prop :=
  p.bound?.bind DartType.name? = q.bound?.bind DartType.name?

structure SameBoundClass (p q : TypeParameter) : Prop where
  value : BoundBegins "Value" p.bound? ↔ BoundBegins "Value" q.bound?
  builder : BoundBegins "Builder" p.bound? ↔ BoundBegins "Builder" q.bound?

variable {p q : TypeParameter}

theorem SameBoundName.sameClass (h : SameBoundName p q) : SameBoundClass p q := by
  have hbegins : ∀ head, BoundBegins head p.bound? ↔ BoundBegins head q.bound? := by
    intro head
    rw [BoundBegins, BoundBegins, h]
  exact ⟨hbegins "Value", hbegins "Builder"⟩

theorem sameBoundClass_iff :
    SameBoundClass p q ↔ BoundRole.ofBound p.bound? = BoundRole.ofBound q.bound? := by
  constructor
  · intro h
    have hvalue := h.value
    have hbuilder := h.builder
    rw [← BoundRole.ofBound_eq_value_iff, ← BoundRole.ofBound_eq_value_iff] at hvalue
    rw [← BoundRole.ofBound_eq_builder_iff, ← BoundRole.ofBound_eq_builder_iff] at hbuilder
    cases hp : BoundRole.ofBound p.bound? with
    | value => exact (hvalue.1 hp).symm
    | builder => exact (hbuilder.1 hp).symm
    | other =>
        cases hq : BoundRole.ofBound q.bound? with
        | value => exact absurd (hvalue.2 hq) (by simp [hp])
        | builder => exact absurd (hbuilder.2 hq) (by simp [hp])
        | other => rfl
  · intro h
    constructor
    · rw [← BoundRole.ofBound_eq_value_iff, ← BoundRole.ofBound_eq_value_iff, h]
    · rw [← BoundRole.ofBound_eq_builder_iff, ← BoundRole.ofBound_eq_builder_iff, h]

end TypeParameter

namespace DartType

open TypeParameter

inductive Like (R : TypeParameter → TypeParameter → Prop) : DartType → DartType → Prop
  | named (name : String) : Like R (.named name) (.named name)
  | generic {form form' : GenericForm} {name : String} {params params' : List TypeParameter}
      {args args' : List DartType} : List.Forall₂ R params params' →
      List.Forall₂ (Like R) args args' →
      Like R (.generic form name params args) (.generic form' name params' args')
  | void : Like R .void .void
  | fallback {type type' : DartType} : type = .dynamic ∨ type = .unresolved →
      type' = .dynamic ∨ type' = .unresolved → Like R type type'

section

variable {R S : TypeParameter → TypeParameter → Prop} {type type' : DartType}
variable {params params' : List TypeParameter} {args args' : List DartType}

theorem render_fallback (h : type = .dynamic ∨ type = .unresolved) :
    type.render = .ok Dart.dynamic := by
  rcases h with rfl | rfl
  · rfl
  · rfl

theorem argumentTexts_fallback (h : type = .dynamic ∨ type = .unresolved) :
    type.argumentTexts = .ok [] := by
  rcases h with rfl | rfl
  · rfl
  · rfl

theorem Like.mono (hRS : ∀ p q, R p q → S p q) (h : Like R type type') : Like S type type' := by
  induction type using induction_arguments generalizing type' with
  | step type ih =>
      cases h with
      | named name => exact .named name
      | void => exact .void
      | fallback h h' => exact .fallback h h'
      | generic hparams hargs => exact .generic (hparams.imp hRS) (forall₂_of_mem hargs ih)

theorem aligned_of_forall₂ {U : DartType → DartType → Prop}
    (hparams : List.Forall₂ R params params') (hargs : List.Forall₂ U args args') :
    aligned params args = aligned params' args' := by
  have hlength := hparams.length_eq
  cases hparams with
  | nil => rfl
  | cons _ _ =>
      simp only [aligned, List.isEmpty_cons, Bool.false_or]
      rw [hlength, hargs.length_eq]

theorem roles_of_forall₂ (hparams : List.Forall₂ SameBoundClass params params') :
    roles params = roles params' := by
  induction hparams with
  | nil => rfl
  | cons hp _ ih =>
      rw [roles, roles] at ih ⊢
      rw [List.map_cons, List.map_cons, sameBoundClass_iff.1 hp, ih]

theorem renderAll_of_forall₂
    (h : List.Forall₂ (fun arg arg' => arg.render = arg'.render) args args') :
    renderAll args = renderAll args' := by
  induction h with
  | nil => rfl
  | cons harg _ ih => rw [renderAll, renderAll, harg, ih]

theorem argumentTexts_of_forall₂ (form form' : GenericForm) (name : String)
    (hparams : List.Forall₂ SameBoundClass params params')
    (hargs : List.Forall₂ (fun arg arg' => arg.render = arg'.render) args args') :
    argumentTexts (.generic form name params args) =
      argumentTexts (.generic form' name params' args') := by
  rw [argumentTexts_generic, argumentTexts_generic, aligned_of_forall₂ hparams hargs,
    roles_of_forall₂ hparams, renderAll_of_forall₂ hargs, hparams.length_eq, hargs.length_eq]

theorem render_of_like (h : Like SameBoundClass type type') : type.render = type'.render := by
  induction type using induction_arguments generalizing type' with
  | step type ih =>
      cases h with
      | named name => rfl
      | void => rfl
      | fallback h h' => rw [render_fallback h, render_fallback h']
      | generic hparams hargs =>
          rw [render_generic, render_generic, argumentTexts_of_forall₂ _ _ _ hparams]
          exact forall₂_of_mem hargs ih

theorem argumentTexts_of_like (h : Like SameBoundClass type type') :
    type.argumentTexts = type'.argumentTexts := by
  cases h with
  | named name => rfl
  | void => rfl
  | fallback h h' => rw [argumentTexts_fallback h, argumentTexts_fallback h']
  | generic hparams hargs =>
      exact argumentTexts_of_forall₂ _ _ _ hparams (hargs.imp fun _ _ => render_of_like)

theorem findSome?_misalignment?_of_like (h : Like R type type') :
    type.nodes.findSome? misalignment? = type'.nodes.findSome? misalignment? := by
  induction type using induction_arguments generalizing type' with
  | step type ih =>
      cases h with
      | named name => rfl
      | void => rfl
      | fallback h h' =>
          rw [← failure?_render, ← failure?_render, render_fallback h, render_fallback h']
      | @generic form form' name params params' args args' hparams hargs =>
          have hnodes : (nodesAll args).findSome? misalignment? =
              (nodesAll args').findSome? misalignment? := by
            rw [findSome?_nodesAll, findSome?_nodesAll]
            exact findSome?_of_forall₂ (forall₂_of_mem hargs ih)
          rw [nodes, nodes, List.findSome?_cons, List.findSome?_cons, misalignment?, misalignment?,
            aligned_of_forall₂ hparams hargs, hparams.length_eq, hargs.length_eq, hnodes]

end

theorem texts_of_like (type type' : DartType) :
    (Like SameBoundClass type type' →
      type.render = type'.render ∧ type.argumentTexts = type'.argumentTexts) ∧
    (Like SameBoundName type type' →
      type.render = type'.render ∧ type.argumentTexts = type'.argumentTexts) := by
  have hclass : Like SameBoundClass type type' →
      type.render = type'.render ∧ type.argumentTexts = type'.argumentTexts :=
    fun h => ⟨render_of_like h, argumentTexts_of_like h⟩
  exact ⟨hclass, fun h => hclass (h.mono fun _ _ => SameBoundName.sameClass)⟩

def storeType : DartType :=
  .generic .parameterized "Store"
    [.bounded "V" (.named "Value"), .bounded "B" (.named "BuilderOf")]
    [.generic .parameterized "List" [] [.named "Foo"], .unresolved]

def storeAlias : DartType :=
  .generic .function "Store"
    [.bounded "W" (.named "ValueType"), .bounded "C" (.named "Builder")]
    [.generic .function "List" [] [.named "Foo"], .dynamic]

def storeOfNothing : DartType :=
  .generic .parameterized "Store"
    [.bounded "V" (.named "Value"),
      .bounded "B" (.generic .parameterized "BuilderOf" [.free "V"] [])]
    [.generic .parameterized "List" [] [.named "Foo"], .unresolved]

theorem texts_of_like_store :
    Like SameBoundClass storeType storeAlias ∧ Like SameBoundName storeType storeOfNothing ∧
      storeAlias.render = .ok "Store<List<Foo>,List<Foo>Builder>" ∧
      storeOfNothing.argumentTexts = .ok ["List<Foo>", "List<Foo>Builder"] := by
  have hclass : Like SameBoundClass storeType storeAlias := by
    refine .generic (.cons ?_ (.cons ?_ .nil)) (.cons ?_ (.cons ?_ .nil))
    · exact sameBoundClass_iff.2 (by decide)
    · exact sameBoundClass_iff.2 (by decide)
    · exact .generic .nil (.cons (.named "Foo") .nil)
    · exact .fallback (.inr rfl) (.inl rfl)
  have hname : Like SameBoundName storeType storeOfNothing := by
    refine .generic (.cons rfl (.cons rfl .nil)) (.cons ?_ (.cons ?_ .nil))
    · exact .generic .nil (.cons (.named "Foo") .nil)
    · exact .fallback (.inr rfl) (.inr rfl)
  have htext : storeType.render = .ok "Store<List<Foo>,List<Foo>Builder>" := by decide
  have htexts : storeType.argumentTexts = .ok ["List<Foo>", "List<Foo>Builder"] := by decide
  exact ⟨hclass, hname, ((texts_of_like _ _).1 hclass).1.symm.trans htext,
    ((texts_of_like _ _).2 hname).2.symm.trans htexts⟩

end DartType

end ActionWiring
