import ActionWiring.Proofs.Pointwise
import ActionWiring.Proofs.Rewriting
import ActionWiring.Proofs.TypeMembers

namespace ActionWiring.Document

open Json

section Understanding

variable {β : Type} {role : Role}

structure ScalarOnly (f : Value → Except DataError β) : Prop where
  array : ∀ vs b, f (.array vs) ≠ .ok b
  object : ∀ ms b, f (.object ms) ≠ .ok b

def listOf (f : Value → Except DataError β) : Value → Except DataError (List β)
  | .array vs => vs.mapM f
  | v => .error (.unexpected (.ofValue v) .sequence)

def describedType (v : Value) : Except DataError DartType := typeOf? v >>= present

inductive Understands : Role → (β : Type) → (Value → Except DataError β) → Prop
  | scalar {β : Type} {f : Value → Except DataError β} (h : ScalarOnly f) : Understands .other β f
  | type {read : KindReader} (h : ScalarOnly read) : Understands .type _ (typeBy read)
  | described : Understands .type _ describedType
  | param : Understands .typeParameter _ paramOf
  | list {item : Role} {β : Type} {f : Value → Except DataError β} (h : Understands item β f) :
      Understands (.list item) _ (listOf f)

def Role.Agree (role : Role) (v v' : Value) : Prop :=
  ∀ ⦃β : Type⦄ ⦃f : Value → Except DataError β⦄, Understands role β f →
    ∀ ⦃b : β⦄, f v = .ok b → f v' = .ok b

theorem scalarOnly_textOf : ScalarOnly textOf := ⟨nofun, nofun⟩

theorem scalarOnly_ofValue : ScalarOnly TypeKind.ofValue := ⟨nofun, nofun⟩

theorem argsOf_eq : argsOf = listOf describedType := by
  have hall (vs : List Value) : typesOf vs = vs.mapM describedType := by
    induction vs with
    | nil => rw [typesOf]; rfl
    | cons v vs ih =>
        rw [typesOf, List.mapM_cons, ← ih, describedType, bind_assoc]
  funext v
  cases v with
  | array vs => rw [argsOf, hall, listOf]
  | _ => rfl

theorem paramsOf_eq : paramsOf = listOf paramOf := by
  have hall (vs : List Value) : paramListOf vs = vs.mapM paramOf := by
    induction vs with
    | nil => rw [paramListOf]; rfl
    | cons v vs ih =>
        rw [paramListOf, List.mapM_cons, ← ih]
  funext v
  cases v with
  | array vs => rw [paramsOf, hall, listOf]
  | _ => rfl

theorem understands_typeOf? : Understands .type _ typeOf? :=
  (funext typeOf?_eq_typeBy : typeOf? = _) ▸ .type scalarOnly_ofValue

theorem understands_argsOf : Understands (.list .type) _ argsOf := argsOf_eq ▸ .list .described

theorem understands_paramsOf : Understands (.list .typeParameter) _ paramsOf :=
  paramsOf_eq ▸ .list .param

end Understanding

section Members

variable {role : Role}

def Role.AgreeAt (role : Role) (m m' : String × Value) : Prop :=
  m.1 = m'.1 ∧ (role.member m.1).Agree m.2 m'.2

def Role.IsIdle (role : Role) (m : String × Value) : Prop :=
  ∃ (tree : Tree) (depth : Nat), role.IsDefault m.1 tree ∧ tree.value depth = .ok m.2

theorem isIdle_type {m : String × Value} (h : Role.type.IsIdle m) :
    (m.1 = "params" ∨ m.1 = "args") ∧ m.2 = .array [] := by
  obtain ⟨tree, depth, hdefault, hv⟩ := h
  generalize hname : m.1 = name at hdefault
  cases hdefault with
  | emptyList hmember =>
      have hpart := Role.mem_parts_of_member hmember
      simp only [Role.parts, List.mem_cons, Prod.mk.injEq, reduceCtorEq, and_false,
        List.not_mem_nil, or_false, false_or] at hpart
      refine ⟨hpart.imp And.left And.left, ?_⟩
      simp only [Tree.value, Tree.values, bind_eq_ok] at hv
      obtain ⟨_, -, _, ⟨⟩, _, -, hv⟩ := hv
      exact (Except.ok.inj hv).symm

theorem isIdle_typeParameter {m : String × Value} (h : Role.typeParameter.IsIdle m) :
    m.1 = "bound" ∧ m.2 = .null := by
  obtain ⟨tree, depth, hdefault, hv⟩ := h
  generalize hname : m.1 = name at hdefault
  cases hdefault with
  | emptyList hmember =>
      have hpart := Role.mem_parts_of_member hmember
      simp [Role.parts] at hpart
  | noBound => exact ⟨rfl, (Except.ok.inj hv).symm⟩

variable {δ β : Type} {put : δ → String → Value → Except DataError δ} {slots : List (Slot δ Value)}

theorem Slotted.tolerant_values (h : Slotted put slots)
    (pass : ∀ name, (∀ s ∈ slots, s.name ≠ name) → ∀ d v, put d name v = .ok d)
    (keeps : ∀ s ∈ slots, ∀ v v', (role.member s.name).Agree v v' →
      ∀ f, s.store v = some f → s.store v' = some f)
    {finish : δ → Except DataError β}
    (leaveOut : ∀ m, role.IsIdle m → ∀ d d' b, put d m.1 m.2 = .ok d' → finish d' = .ok b →
      finish d = .ok b) (start : δ) :
    Tolerant role.AgreeAt role.IsIdle fun ms =>
      ms.foldlM (fun d m => put d m.1 m.2) start >>= finish := by
  refine h.commutes.tolerant start ?_ fun m hidle d d' b => leaveOut m hidle d d' b
  rintro ⟨name, v⟩ ⟨_, v'⟩ ⟨rfl, hagree⟩ d d' hput
  refine h.exchange (fun s hs hname f hf => ?_) (fun hother d _ => pass name hother d v') hput
  subst hname
  exact keeps s hs v v' hagree f hf

theorem tolerant_kindAmong {read : KindReader} (hread : ScalarOnly read) :
    Tolerant Role.type.AgreeAt Role.type.IsIdle (kindAmong read) := by
  refine (slotted_kind read).tolerant_values (pass_kind read) ?_ ?_ none
  · refine List.forall_mem_singleton.2 fun v v' hagree f hf => ?_
    exact Slot.ofField_exchange (hagree (.scalar hread)) hf
  · rintro ⟨name, v⟩ hidle d d' b hput hfinish
    have hname : name ≠ kindField := by
      rcases (isIdle_type hidle).1 with rfl | rfl <;> decide
    rw [kindPut, if_neg hname] at hput
    cases hput
    exact hfinish

theorem tolerant_namedMembers :
    Tolerant Role.type.AgreeAt Role.type.IsIdle (namedMembers none) := by
  rw [funext (namedMembers_eq none)]
  refine slotted_name.tolerant_values pass_name ?_ ?_ none
  · refine List.forall_mem_singleton.2 fun v v' hagree f hf => ?_
    exact Slot.ofField_exchange (hagree (.scalar scalarOnly_textOf)) hf
  · rintro ⟨name, v⟩ hidle d d' b hput hfinish
    have hname : name ≠ "name" := by
      rcases (isIdle_type hidle).1 with rfl | rfl <;> decide
    rw [namePut, if_neg hname] at hput
    cases hput
    exact hfinish

theorem tolerant_genericMembers (form : GenericForm) :
    Tolerant Role.type.AgreeAt Role.type.IsIdle (genericMembers form {}) := by
  rw [funext (genericMembers_eq form {})]
  refine slotted_generic.tolerant_values pass_generic ?_ ?_ {}
  · simp only [genericSlots, List.mem_cons, List.not_mem_nil, or_false, forall_eq_or_imp, forall_eq]
    refine ⟨fun v v' hagree f hf => ?_, fun v v' hagree f hf => ?_, fun v v' hagree f hf => ?_⟩
    · exact Slot.ofField_exchange (hagree (.scalar scalarOnly_textOf)) hf
    · exact Slot.ofField_exchange (hagree understands_paramsOf) hf
    · exact Slot.ofField_exchange (hagree understands_argsOf) hf
  · rintro ⟨name, v⟩ hidle d d' b hput hfinish
    obtain ⟨hname, hv⟩ := isIdle_type hidle
    dsimp only at hname hv hput
    subst hv
    rcases hname with rfl | rfl
    · obtain ⟨hnone, params, hparams, rfl⟩ := fillOnce_bind_eq_ok.1 hput
      rw [paramsOf, paramListOf] at hparams
      cases hparams
      rw [← hfinish, GenericDraft.finish, GenericDraft.finish, hnone]
      rfl
    · obtain ⟨hnone, args, hargs, rfl⟩ := fillOnce_bind_eq_ok.1 hput
      rw [argsOf, typesOf] at hargs
      cases hargs
      rw [← hfinish, GenericDraft.finish, GenericDraft.finish, hnone]
      rfl

theorem tolerant_paramMembers :
    Tolerant Role.typeParameter.AgreeAt Role.typeParameter.IsIdle (paramMembers {}) := by
  rw [funext (paramMembers_eq {})]
  refine slotted_param.tolerant_values pass_param ?_ ?_ {}
  · simp only [paramSlots, List.mem_cons, List.not_mem_nil, or_false, forall_eq_or_imp, forall_eq]
    refine ⟨fun v v' hagree f hf => ?_, fun v v' hagree f hf => ?_⟩
    · exact Slot.ofField_exchange (hagree (.scalar scalarOnly_textOf)) hf
    · exact Slot.ofField_exchange (hagree understands_typeOf?) hf
  · rintro ⟨name, v⟩ hidle d d' b hput hfinish
    obtain ⟨hname, hv⟩ := isIdle_typeParameter hidle
    dsimp only at hname hv hput
    subst hv hname
    obtain ⟨hnone, bound, hbound, rfl⟩ := fillOnce_bind_eq_ok.1 hput
    rw [typeOf?] at hbound
    cases hbound
    rw [← hfinish, ParamDraft.finish, ParamDraft.finish, hnone]
    rfl

theorem tolerant_typeOfMembers (kind : TypeKind) :
    Tolerant Role.type.AgreeAt Role.type.IsIdle (typeOfMembers kind) := by
  cases kind with
  | named => exact tolerant_namedMembers
  | generic form => exact tolerant_genericMembers form
  | void | dynamic | unresolved => exact tolerant_const _

theorem tolerant_typeBy {read : KindReader} (hread : ScalarOnly read) :
    Tolerant Role.type.AgreeAt Role.type.IsIdle fun ms => typeBy read (.object ms) := by
  simp only [typeBy]
  exact (tolerant_kindAmong hread).bind fun kind =>
    (tolerant_typeOfMembers kind).bind fun type => tolerant_const (pure (some type))

theorem Role.agree_object {ms ms' : List (String × Value)}
    (h : ∀ {β : Type} {read : List (String × Value) → Except DataError β},
      Tolerant role.AgreeAt role.IsIdle read → ∀ {b}, read ms = .ok b → read ms' = .ok b) :
    role.Agree (.object ms) (.object ms') := by
  intro β f hf b hb
  cases hf with
  | scalar hscalar => exact absurd hb (hscalar.object ms b)
  | type hread => exact h (tolerant_typeBy hread) hb
  | described =>
      obtain ⟨type, htype, hb⟩ := bind_eq_ok.1 hb
      rw [typeOf?_eq_typeBy] at htype
      have htype' := h (tolerant_typeBy scalarOnly_ofValue) htype
      rw [← typeOf?_eq_typeBy] at htype'
      exact bind_eq_ok.2 ⟨type, htype', hb⟩
  | param =>
      rw [paramOf] at hb ⊢
      exact h tolerant_paramMembers hb
  | list hf => cases hb

end Members

section Elements

variable {role : Role} {a b : Value}

theorem namedElements_item {front back : List Value}
    (h : (Role.type.element (front.length + 1)).Agree a b) {type : DartType}
    (htype : namedElements (front ++ a :: back) = .ok type) :
    namedElements (front ++ b :: back) = .ok type := by
  match front with
  | [] =>
      obtain ⟨name, hname, hmore⟩ := bind_eq_ok.1 htype
      exact bind_eq_ok.2 ⟨name, h (.scalar scalarOnly_textOf) hname, hmore⟩
  | n :: front =>
      obtain ⟨name, -, hmore⟩ := bind_eq_ok.1 htype
      rw [if_neg (by simp)] at hmore
      cases hmore

theorem genericElements_item {form : GenericForm} {front back : List Value}
    (h : (Role.type.element (front.length + 1)).Agree a b) {type : DartType}
    (htype : genericElements form (front ++ a :: back) = .ok type) :
    genericElements form (front ++ b :: back) = .ok type := by
  match front with
  | [] =>
      have hname := h (.scalar scalarOnly_textOf)
      match back with
      | [] | [p] | p :: x :: more =>
          simp only [List.nil_append, genericElements, bind_eq_ok] at htype ⊢
          obtain ⟨name, ha, hmore⟩ := htype
          exact ⟨name, hname ha, hmore⟩
  | [n] =>
      have hparams := h understands_paramsOf
      match back with
      | [] | x :: more =>
          simp only [List.singleton_append, genericElements, bind_eq_ok] at htype ⊢
          obtain ⟨name, hname, params, ha, hmore⟩ := htype
          exact ⟨name, hname, params, hparams ha, hmore⟩
  | [n, p] =>
      have hargs := h understands_argsOf
      simp only [List.cons_append, List.nil_append, genericElements, bind_eq_ok] at htype ⊢
      obtain ⟨name, hname, params, hparams, args, ha, hmore⟩ := htype
      exact ⟨name, hname, params, hparams, args, hargs ha, hmore⟩
  | n :: p :: x :: front =>
      simp only [List.cons_append, genericElements, bind_eq_ok] at htype
      obtain ⟨name, -, params, -, args, -, hmore⟩ := htype
      rw [if_neg (by simp)] at hmore
      cases hmore

theorem typeOfElements_item {kind : TypeKind} {front back : List Value}
    (h : (Role.type.element (front.length + 1)).Agree a b) {type : DartType}
    (htype : typeOfElements kind (front ++ a :: back) = .ok type) :
    typeOfElements kind (front ++ b :: back) = .ok type := by
  cases kind with
  | named => exact namedElements_item h htype
  | generic form => exact genericElements_item h htype
  | void | dynamic | unresolved => cases front <;> cases htype

theorem typeBy_item {read : KindReader} (hread : ScalarOnly read) {front back : List Value}
    (h : (Role.type.element front.length).Agree a b) {type : Option DartType}
    (htype : typeBy read (.array (front ++ a :: back)) = .ok type) :
    typeBy read (.array (front ++ b :: back)) = .ok type := by
  match front with
  | [] =>
      obtain ⟨kind, hkind, hrest⟩ := bind_eq_ok.1 htype
      exact bind_eq_ok.2 ⟨kind, h (.scalar hread) hkind, hrest⟩
  | k :: front =>
      obtain ⟨kind, hkind, hrest⟩ := bind_eq_ok.1 htype
      obtain ⟨type, htype, hsome⟩ := bind_eq_ok.1 hrest
      exact bind_eq_ok.2 ⟨kind, hkind, bind_eq_ok.2 ⟨type, typeOfElements_item h htype, hsome⟩⟩

theorem paramOf_item {front back : List Value}
    (h : (Role.typeParameter.element front.length).Agree a b) {param : TypeParameter}
    (hparam : paramOf (.array (front ++ a :: back)) = .ok param) :
    paramOf (.array (front ++ b :: back)) = .ok param := by
  match front with
  | [] =>
      have hname := h (.scalar scalarOnly_textOf)
      match back with
      | [] | x :: more =>
          simp only [List.nil_append, paramOf, bind_eq_ok] at hparam ⊢
          obtain ⟨name, ha, hmore⟩ := hparam
          exact ⟨name, hname ha, hmore⟩
  | [n] =>
      have hbound := h understands_typeOf?
      simp only [List.singleton_append, paramOf, bind_eq_ok] at hparam ⊢
      obtain ⟨name, hname, bound, hb, hmore⟩ := hparam
      exact ⟨name, hname, bound, hbound hb, hmore⟩
  | n :: x :: front =>
      simp only [List.cons_append, paramOf, bind_eq_ok] at hparam
      obtain ⟨name, -, bound, -, hmore⟩ := hparam
      rw [if_neg (by simp)] at hmore
      cases hmore

theorem Role.agree_item {front back : List Value} (h : (role.element front.length).Agree a b) :
    role.Agree (.array (front ++ a :: back)) (.array (front ++ b :: back)) := by
  intro β f hf x hx
  cases hf with
  | scalar hscalar => exact absurd hx (hscalar.array _ x)
  | type hread => exact typeBy_item hread h hx
  | described =>
      obtain ⟨type, htype, hx⟩ := bind_eq_ok.1 hx
      rw [typeOf?_eq_typeBy] at htype
      have htype' := typeBy_item scalarOnly_ofValue h htype
      rw [← typeOf?_eq_typeBy] at htype'
      exact bind_eq_ok.2 ⟨type, htype', hx⟩
  | param => exact paramOf_item h hx
  | list hf =>
      obtain ⟨front', x, back', hfront, hitem, hback, rfl⟩ :=
        forall₂_append_cons_left.1 (mapM_eq_ok.1 hx)
      exact mapM_eq_ok.2
        (forall₂_append_cons_left.2 ⟨front', x, back', hfront, h hf hitem, hback, rfl⟩)

end Elements

section Trees

variable {role : Role} {tree tree' : Tree} {depth : Nat} {v : Value}

def memberValue (depth : Nat) (m : Tree × Tree) : Except Fault (String × Value) := do
  let name ← m.1.keyText
  let v ← m.2.value depth
  return (name, v)

theorem values_eq_mapM (depth : Nat) (trees : List Tree) :
    Tree.values depth trees = trees.mapM (Tree.value depth) := by
  induction trees with
  | nil => rw [Tree.values]; rfl
  | cons tree trees ih => rw [Tree.values, List.mapM_cons, ih]

theorem memberValues_eq_mapM (depth : Nat) (members : List (Tree × Tree)) :
    Tree.memberValues depth members = members.mapM (memberValue depth) := by
  induction members with
  | nil => rw [Tree.memberValues]; rfl
  | cons m members ih =>
      rw [Tree.memberValues, List.mapM_cons, ih, memberValue, bind_assoc]
      simp only [bind_assoc, pure_bind]

theorem value_array_eq_ok {items : List Tree} {fault : Option Fault} :
    (Tree.array items fault).value depth = .ok v ↔
      ∃ inner vs, enter depth = .ok inner ∧
        List.Forall₂ (fun tree v => tree.value inner = .ok v) items vs ∧
        closing fault = .ok () ∧ .array vs = v := by
  simp only [Tree.value, values_eq_mapM, bind_eq_ok, mapM_eq_ok]
  constructor
  · rintro ⟨inner, hinner, vs, hvs, ⟨⟩, hclosing, ⟨⟩⟩
    exact ⟨inner, vs, hinner, hvs, hclosing, rfl⟩
  · rintro ⟨inner, vs, hinner, hvs, hclosing, rfl⟩
    exact ⟨inner, hinner, vs, hvs, (), hclosing, rfl⟩

theorem value_object_eq_ok {members : List (Tree × Tree)} {fault : Option Fault} :
    (Tree.object members fault).value depth = .ok v ↔
      ∃ inner ms, enter depth = .ok inner ∧
        List.Forall₂ (fun m m' => memberValue inner m = .ok m') members ms ∧
        closing fault = .ok () ∧ .object ms = v := by
  simp only [Tree.value, memberValues_eq_mapM, bind_eq_ok, mapM_eq_ok]
  constructor
  · rintro ⟨inner, hinner, ms, hms, ⟨⟩, hclosing, ⟨⟩⟩
    exact ⟨inner, ms, hinner, hms, hclosing, rfl⟩
  · rintro ⟨inner, ms, hinner, hms, hclosing, rfl⟩
    exact ⟨inner, hinner, ms, hms, (), hclosing, rfl⟩

theorem memberValue_eq_ok {key tree : Tree} {m : String × Value} :
    memberValue depth (key, tree) = .ok m ↔ key.keyText = .ok m.1 ∧ tree.value depth = .ok m.2 := by
  simp only [memberValue, bind_eq_ok]
  constructor
  · rintro ⟨name, hname, v, hv, ⟨⟩⟩
    exact ⟨hname, hv⟩
  · rintro ⟨hname, hv⟩
    exact ⟨m.1, hname, m.2, hv, rfl⟩

theorem Role.under_eq {key : Tree} {name : String} (hkey : key.keyText = .ok name) :
    role.under key = role.member name := by
  rw [under, hkey]

theorem Rewrite.value (h : Rewrite role tree tree') (hv : tree.value depth = .ok v) :
    ∃ v', tree'.value depth = .ok v' ∧ role.Agree v v' := by
  induction h generalizing depth v with
  | item _ ih =>
      obtain ⟨inner, vs, hinner, hvs, hclosing, rfl⟩ := value_array_eq_ok.1 hv
      obtain ⟨front, va, back, hfront, ha, hback, rfl⟩ := forall₂_append_cons_left.1 hvs
      obtain ⟨vb, hb, hagree⟩ := ih ha
      have hvs' := forall₂_append_cons_left.2 ⟨front, vb, back, hfront, hb, hback, rfl⟩
      rw [hfront.length_eq] at hagree
      exact ⟨_, value_array_eq_ok.2 ⟨inner, _, hinner, hvs', hclosing, rfl⟩, Role.agree_item hagree⟩
  | member _ ih =>
      obtain ⟨inner, ms, hinner, hms, hclosing, rfl⟩ := value_object_eq_ok.1 hv
      obtain ⟨front, m, back, hfront, hm, hback, rfl⟩ := forall₂_append_cons_left.1 hms
      obtain ⟨hkey, ha⟩ := memberValue_eq_ok.1 hm
      obtain ⟨vb, hb, hagree⟩ := ih ha
      rw [Role.under_eq hkey] at hagree
      have hm' : memberValue inner _ = .ok (m.1, vb) := memberValue_eq_ok.2 ⟨hkey, hb⟩
      have hms' := forall₂_append_cons_left.2 ⟨front, _, back, hfront, hm', hback, rfl⟩
      exact ⟨_, value_object_eq_ok.2 ⟨inner, _, hinner, hms', hclosing, rfl⟩,
        Role.agree_object fun tolerant => tolerant.exchange ⟨rfl, hagree⟩⟩
  | permute hperm =>
      obtain ⟨inner, ms, hinner, hms, hclosing, rfl⟩ := value_object_eq_ok.1 hv
      obtain ⟨ms', hms', hperm'⟩ := List.perm_comp_forall₂ hperm.symm hms
      exact ⟨_, value_object_eq_ok.2 ⟨inner, _, hinner, hms', hclosing, rfl⟩,
        Role.agree_object fun tolerant => tolerant.permute hperm'.symm⟩
  | leaveOut hkey hdefault =>
      obtain ⟨inner, ms, hinner, hms, hclosing, rfl⟩ := value_object_eq_ok.1 hv
      obtain ⟨front, m, back, hfront, hm, hback, rfl⟩ := forall₂_append_cons_left.1 hms
      obtain ⟨hname, hm⟩ := memberValue_eq_ok.1 hm
      rw [hkey, Except.ok.injEq] at hname
      subst hname
      have hidle : Role.IsIdle _ m := ⟨_, inner, hdefault, hm⟩
      have hms' := List.rel_append hfront hback
      exact ⟨_, value_object_eq_ok.2 ⟨inner, _, hinner, hms', hclosing, rfl⟩,
        Role.agree_object fun tolerant => tolerant.leaveOut hidle⟩

end Trees

end ActionWiring.Document
