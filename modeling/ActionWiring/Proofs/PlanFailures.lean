import ActionWiring.Document.Reading
import ActionWiring.Proofs.Planning
import ActionWiring.Proofs.SlotAccess
import ActionWiring.Proofs.SupertypeWalk

namespace ActionWiring

section

variable {ε ε' ι α β : Type} {P : ε → Prop}

def FailsOnly (P : ε → Prop) (x : Except ε α) : Prop := ∀ e, x = .error e → P e

theorem failsOnly_ok (a : α) : FailsOnly P (.ok a : Except ε α) := by
  rintro e ⟨⟩

theorem FailsOnly.bind {x : Except ε α} {f : α → Except ε β} (hx : FailsOnly P x)
    (hf : ∀ a, FailsOnly P (f a)) : FailsOnly P (x >>= f) := by
  cases x with
  | error e =>
      rintro e' ⟨⟩
      exact hx e rfl
  | ok a => exact hf a

theorem FailsOnly.bind_pure {x : Except ε α} (hx : FailsOnly P x) (f : α → β) :
    FailsOnly P (x >>= fun a => pure (f a)) :=
  hx.bind fun a => failsOnly_ok (f a)

theorem FailsOnly.mapError {Q : ε' → Prop} {x : Except ε α} {f : ε → ε'} (hx : FailsOnly P x)
    (hf : ∀ e, P e → Q (f e)) : FailsOnly Q (x.mapError f) := by
  cases x with
  | error e =>
      rintro e' ⟨⟩
      exact hf e (hx e rfl)
  | ok a => exact failsOnly_ok a

theorem FailsOnly.select {chosen : ι → Except ε Bool} {result : ι → Except ε α} {is : List ι}
    (hc : ∀ i, FailsOnly P (chosen i)) (hr : ∀ i, FailsOnly P (result i)) :
    FailsOnly P (select chosen result is) := by
  induction is with
  | nil => exact failsOnly_ok []
  | cons i is ih =>
      rw [ActionWiring.select]
      refine (hc i).bind fun b => ?_
      cases b with
      | false => exact ih
      | true => exact (hr i).bind fun r => ih.bind_pure _

end

def Misalignment.Differs (m : Misalignment) : Prop := m.params ≠ m.args

namespace DartType

theorem differs_of_misalignment? {type : DartType} {m : Misalignment}
    (h : type.misalignment? = some m) : m.Differs := by
  obtain ⟨_, _, _, _, -, -, hlength, rfl⟩ := misalignment?_eq_some_iff.1 h
  exact hlength

theorem differs_of_findSome? {types : List DartType} {m : Misalignment}
    (h : types.findSome? misalignment? = some m) : m.Differs := by
  obtain ⟨type, -, hm⟩ := List.exists_of_findSome?_eq_some h
  exact differs_of_misalignment? hm

theorem failsOnly_render (type : DartType) : FailsOnly Misalignment.Differs type.render := by
  intro m h
  have hm : type.nodes.findSome? misalignment? = some m := by
    rw [← failure?_render, h, failure?]
  exact differs_of_findSome? hm

theorem failsOnly_argumentTexts (type : DartType) :
    FailsOnly Misalignment.Differs type.argumentTexts := by
  intro m h
  have hm : type.nodes.findSome? misalignment? = some m := by
    rw [← failure?_argumentTexts, h, failure?]
  exact differs_of_findSome? hm

theorem failsOnly_payload (type : DartType) : FailsOnly Misalignment.Differs type.payload :=
  (failsOnly_argumentTexts type).bind_pure _

end DartType

inductive DeclarationError.OfHierarchy : DeclarationError → Prop
  | unknownSupertype (declaration supertype : String) :
      OfHierarchy (.unknownSupertype declaration supertype)
  | ownSupertype (declaration : String) : OfHierarchy (.ownSupertype declaration)

inductive PlanError.OfDistinct : PlanError → Prop
  | hierarchy {cause : DeclarationError} : cause.OfHierarchy → OfDistinct (.model cause)
  | types {cause : Misalignment} : cause.Differs → OfDistinct (.misaligned cause)

namespace CompilationUnit

variable {u : CompilationUnit} {s : Settings} {d : Declaration} {α : Type}

theorem failsOnly_liftTypes {x : Except Misalignment α} (h : FailsOnly Misalignment.Differs x) :
    FailsOnly PlanError.OfDistinct (liftTypes x) :=
  h.mapError fun _ => .types

theorem failsOnly_liftDeclarations {x : Except DeclarationError α}
    (h : FailsOnly DeclarationError.OfHierarchy x) :
    FailsOnly PlanError.OfDistinct (liftDeclarations x) :=
  h.mapError fun _ => .hierarchy

section

variable (distinct : u.names.Nodup)

include distinct

theorem failsOnly_lookup (name : String) :
    FailsOnly DeclarationError.OfHierarchy (u.lookup name) := by
  obtain ⟨found, h⟩ := lookup_ok distinct name
  exact h ▸ failsOnly_ok found

theorem failsOnly_ownDeclarations : FailsOnly DeclarationError.OfHierarchy u.ownDeclarations := by
  rw [ownDeclarations_eq_ok_iff.2 ⟨distinct, rfl⟩]
  exact failsOnly_ok u.own

theorem failsOnly_transitiveSupertypes (d : Declaration) :
    FailsOnly DeclarationError.OfHierarchy (u.transitiveSupertypes d) := by
  intro cause h
  rcases transitiveSupertypes_error_cases distinct h with ⟨rfl, -⟩ | ⟨owner, listed, rfl, -⟩
  · exact .ownSupertype d.name
  · exact .unknownSupertype owner listed

theorem failsOnly_qualifies (s : Settings) (d : Declaration) :
    FailsOnly DeclarationError.OfHierarchy (u.qualifies s d) := by
  rw [qualifies]
  split
  · exact (failsOnly_transitiveSupertypes distinct d).bind_pure _
  · exact failsOnly_ok false

theorem failsOnly_holdsContainer (s : Settings) (type : DartType) :
    FailsOnly DeclarationError.OfHierarchy (u.holdsContainer s type) := by
  rw [holdsContainer]
  split
  · exact failsOnly_ok false
  · refine (failsOnly_lookup distinct _).bind fun found => ?_
    cases found with
    | none => exact failsOnly_ok false
    | some e => exact failsOnly_qualifies distinct s e

theorem failsOnly_gather {chosen : Field → Except PlanError Bool}
    {result : Declaration → Field → Except PlanError α}
    (hc : ∀ f, FailsOnly PlanError.OfDistinct (chosen f))
    (hr : ∀ owner f, FailsOnly PlanError.OfDistinct (result owner f)) :
    FailsOnly PlanError.OfDistinct (u.gather d chosen result) := by
  have hfields : FailsOnly DeclarationError.OfHierarchy (u.fieldsOf d) :=
    (failsOnly_transitiveSupertypes distinct d).bind_pure _
  refine (failsOnly_liftDeclarations hfields).bind fun fields => ?_
  exact FailsOnly.select (fun f => hc f.field) fun f => hr f.owner f.field

theorem failsOnly_planFor (s : Settings) (d : Declaration) :
    FailsOnly PlanError.OfDistinct (u.planFor s d) := by
  have hentries : FailsOnly PlanError.OfDistinct (u.actionEntries s d) :=
    failsOnly_gather distinct (fun f => failsOnly_ok _) fun _ f =>
      (failsOnly_liftTypes (DartType.failsOnly_payload f.type)).bind_pure _
  have hnested : FailsOnly PlanError.OfDistinct (u.nestedEntries s d) :=
    failsOnly_gather distinct
      (fun f => failsOnly_liftDeclarations (failsOnly_holdsContainer distinct s f.type))
      fun _ f => (failsOnly_liftTypes (DartType.failsOnly_render f.type)).bind_pure _
  refine hentries.bind fun entries => FailsOnly.bind_pure ?_ _
  rw [wiringSubclass]
  split
  · exact hnested.bind_pure _
  · exact failsOnly_ok none

theorem failsOnly_generate (s : Settings) : FailsOnly PlanError.OfDistinct (u.generate s) := by
  refine FailsOnly.bind_pure ?_ _
  refine (failsOnly_liftDeclarations (failsOnly_ownDeclarations distinct)).bind fun ds => ?_
  exact FailsOnly.select
    (fun d => failsOnly_liftDeclarations (failsOnly_qualifies distinct s d))
    (failsOnly_planFor distinct s)

end

theorem load_cases (source : String) :
    (∃ cause, load source = .error (.document cause)) ∨
      (∃ name, load source = .error (.model (.declaredTwice name))) ∨
      ∃ u, load source = .ok u ∧ u.names.Nodup := by
  cases hparse : Document.parseUnit source with
  | error cause =>
      rw [load, hparse]
      exact .inl ⟨cause, rfl⟩
  | ok u =>
      have hload : load source = u.check.mapError LoadError.model >>= fun _ => pure u := by
        rw [load, hparse]
        rfl
      cases hrepeat : u.repeatedName with
      | some name =>
          rw [hload, check, hrepeat]
          exact .inr (.inl ⟨name, rfl⟩)
      | none =>
          rw [hload, check, hrepeat]
          exact .inr (.inr ⟨u, rfl, u.repeatedName_eq_none_iff.1 hrepeat⟩)

theorem generate_cases {u : CompilationUnit} (distinct : u.names.Nodup) (s : Settings) :
    (∃ text, u.generate s = .ok text) ∨
      (∃ declaration supertype,
        u.generate s = .error (.model (.unknownSupertype declaration supertype))) ∨
      (∃ declaration, u.generate s = .error (.model (.ownSupertype declaration))) ∨
      ∃ cause : Misalignment, cause.params ≠ cause.args ∧
        u.generate s = .error (.misaligned cause) := by
  cases h : u.generate s with
  | ok text => exact .inl ⟨text, rfl⟩
  | error e =>
      cases failsOnly_generate distinct s e h with
      | hierarchy hcause =>
          cases hcause with
          | unknownSupertype declaration supertype =>
              exact .inr (.inl ⟨declaration, supertype, rfl⟩)
          | ownSupertype declaration => exact .inr (.inr (.inl ⟨declaration, rfl⟩))
      | types hcause => exact .inr (.inr (.inr ⟨_, hcause, rfl⟩))

theorem load_generate_safe (source : String) (s : Settings) :
    ((∃ cause, load source = .error (.document cause)) ∨
      (∃ name, load source = .error (.model (.declaredTwice name))) ∨
      ∃ u, load source = .ok u ∧ ((u.library ++ u.own).map Declaration.name).Nodup ∧
        ((∃ text, u.generate s = .ok text) ∨
          (∃ declaration supertype,
            u.generate s = .error (.model (.unknownSupertype declaration supertype))) ∨
          (∃ declaration, u.generate s = .error (.model (.ownSupertype declaration))) ∨
          ∃ cause : Misalignment, cause.params ≠ cause.args ∧
            u.generate s = .error (.misaligned cause))) ∧
    (∀ type : DartType,
      type.checkedRender = type.render.mapError RenderStop.misaligned) ∧
    ∀ (typeName : String) (bounds : List (Option DartType)) (args : List DartType),
      DartType.checkedArgumentTexts typeName bounds args =
        (DartType.boundedArgumentTexts typeName bounds args).mapError RenderStop.misaligned := by
  refine ⟨?_, DartType.checkedRender_eq, DartType.checkedArgumentTexts_eq⟩
  obtain hdocument | hrepeat | ⟨u, hload, distinct⟩ := load_cases source
  · exact .inl hdocument
  · exact .inr (.inl hrepeat)
  · have hnames : ((u.library ++ u.own).map Declaration.name).Nodup :=
      (List.perm_append_comm.map Declaration.name).nodup_iff.2 distinct
    exact .inr (.inr ⟨u, hload, hnames, generate_cases distinct s⟩)

end CompilationUnit

end ActionWiring
