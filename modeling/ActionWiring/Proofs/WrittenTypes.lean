import ActionWiring.Document.Reading
import ActionWiring.Document.Writing
import ActionWiring.Proofs.WrittenTree

namespace ActionWiring

namespace DartType

open Document

def kind : DartType → TypeKind
  | .named _ => .named
  | .generic form _ _ _ => .generic form
  | .void => .void
  | .dynamic => .dynamic
  | .unresolved => .unresolved

open Json in
def members : DartType → List (String × Value)
  | .named name => [("name", .string name)]
  | .generic _ name params args =>
      [("name", .string name), ("params", .array (ofParams params)), ("args", .array (ofTypes args))]
  | .void | .dynamic | .unresolved => []

theorem ofType_eq (type : DartType) :
    ofType type = .object ((kindField, .string type.kind.word) :: type.members) := by
  cases type with
  | named name => rw [ofType]; rfl
  | generic form name params args => rw [ofType]; rfl
  | void => rw [ofType]; rfl
  | dynamic => rw [ofType]; rfl
  | unresolved => rw [ofType]; rfl

theorem kindField_not_mem_members (type : DartType) : ∀ m ∈ type.members, m.1 ≠ kindField := by
  cases type with
  | named name => simp [members, kindField]
  | generic form name params args => simp [members, kindField]
  | void => simp [members]
  | dynamic => simp [members]
  | unresolved => simp [members]

end DartType

namespace Document

open Json

theorem taggedKind_some {kind : TypeKind} {ms : List (String × Value)}
    (h : ∀ m ∈ ms, m.1 ≠ kindField) : taggedKind (some kind) ms = .ok kind := by
  induction ms with
  | nil => rfl
  | cons m ms ih =>
      obtain ⟨hm, hms⟩ := List.forall_mem_cons.1 h
      rw [taggedKind, if_neg hm, ih hms]

theorem taggedKind_written {kind : TypeKind} {ms : List (String × Value)}
    (h : ∀ m ∈ ms, m.1 ≠ kindField) :
    taggedKind none ((kindField, .string kind.word) :: ms) = .ok kind := by
  have hfill : fillOnce kindField none (TypeKind.ofValue (.string kind.word)) = .ok (some kind) := by
    rw [fillOnce, TypeKind.ofValue, TypeKind.ofWord_word]
    rfl
  rw [taggedKind, if_pos rfl, hfill]
  exact taggedKind_some h

theorem typeOfMembers_cons_kind (kind : TypeKind) (v : Value) (ms : List (String × Value)) :
    typeOfMembers kind ((kindField, v) :: ms) = typeOfMembers kind ms := by
  cases kind with
  | named => simp [typeOfMembers, TypeKind.assemble, namedMembers, kindField]
  | generic form => simp [typeOfMembers, TypeKind.assemble, genericMembers, kindField]
  | void => rfl
  | dynamic => rfl
  | unresolved => rfl

theorem typeOf?_written {type : DartType} (h : typeOfMembers type.kind type.members = .ok type) :
    typeOf? (ofType type) = .ok (some type) := by
  have hkind : taggedKind none ((kindField, .string type.kind.word) :: type.members) =
      .ok type.kind := taggedKind_written type.kindField_not_mem_members
  have hmembers : typeOfMembers type.kind ((kindField, .string type.kind.word) :: type.members) =
      .ok type := by
    rw [typeOfMembers_cons_kind, h]
  rw [type.ofType_eq, typeOf?, hkind]
  change (typeOfMembers type.kind _ >>= fun type => pure (some type)) = _
  rw [hmembers]
  rfl

mutual

theorem typeOfMembers_members (type : DartType) :
    typeOfMembers type.kind type.members = .ok type := by
  match type with
  | .named name => rfl
  | .generic form name params args =>
      have hparams : paramsOf (.array (ofParams params)) = .ok params := by
        rw [paramsOf, paramListOf_ofParams params]
      have hargs : argsOf (.array (ofTypes args)) = .ok args := by
        rw [argsOf, typesOf_ofTypes args]
      simp [typeOfMembers, DartType.kind, DartType.members, TypeKind.assemble, genericMembers,
        fillOnce, textOf, hparams, hargs, GenericDraft.finish, bind, Except.bind, Except.map]
  | .void => rfl
  | .dynamic => rfl
  | .unresolved => rfl

theorem typesOf_ofTypes (types : List DartType) : typesOf (ofTypes types) = .ok types := by
  match types with
  | [] => rw [ofTypes, typesOf]
  | type :: types =>
      have htype := typeOf?_written (typeOfMembers_members type)
      rw [ofTypes, typesOf, htype, typesOf_ofTypes types]
      rfl

theorem paramOf_ofParam (param : TypeParameter) : paramOf (ofParam param) = .ok param := by
  match param with
  | .free name =>
      simp [ofParam, paramOf, paramMembers, fillOnce, textOf, ParamDraft.finish, paramWith, bind,
        Except.bind, Except.map]
  | .bounded name bound =>
      have hbound := typeOf?_written (typeOfMembers_members bound)
      simp [ofParam, paramOf, paramMembers, fillOnce, textOf, hbound, ParamDraft.finish, paramWith,
        bind, Except.bind, Except.map]

theorem paramListOf_ofParams (params : List TypeParameter) :
    paramListOf (ofParams params) = .ok params := by
  match params with
  | [] => rw [ofParams, paramListOf]
  | param :: params =>
      rw [ofParams, paramListOf, paramOf_ofParam param, paramListOf_ofParams params]
      rfl

end

mutual

theorem numberFree_ofType (type : DartType) : (ofType type).NumberFree := by
  match type with
  | .named name => simp [ofType, Value.NumberFree, Value.MembersNumberFree]
  | .generic form name params args =>
      have hparams := numberFree_ofParams params
      have hargs := numberFree_ofTypes args
      simp [ofType, Value.NumberFree, Value.MembersNumberFree, hparams, hargs]
  | .void => simp [ofType, Value.NumberFree, Value.MembersNumberFree]
  | .dynamic => simp [ofType, Value.NumberFree, Value.MembersNumberFree]
  | .unresolved => simp [ofType, Value.NumberFree, Value.MembersNumberFree]

theorem numberFree_ofTypes (types : List DartType) : Value.AllNumberFree (ofTypes types) := by
  match types with
  | [] => trivial
  | type :: types =>
      rw [ofTypes, Value.AllNumberFree]
      exact ⟨numberFree_ofType type, numberFree_ofTypes types⟩

theorem numberFree_ofParam (param : TypeParameter) : (ofParam param).NumberFree := by
  match param with
  | .free name => simp [ofParam, Value.NumberFree, Value.MembersNumberFree]
  | .bounded name bound =>
      simp [ofParam, Value.NumberFree, Value.MembersNumberFree, numberFree_ofType bound]

theorem numberFree_ofParams (params : List TypeParameter) :
    Value.AllNumberFree (ofParams params) := by
  match params with
  | [] => trivial
  | param :: params =>
      rw [ofParams, Value.AllNumberFree]
      exact ⟨numberFree_ofParam param, numberFree_ofParams params⟩

end

theorem numberFree_members (type : DartType) : Value.MembersNumberFree type.members := by
  have h := numberFree_ofType type
  rw [type.ofType_eq, Value.NumberFree, Value.MembersNumberFree] at h
  exact h.2

section

variable {α : Type} {depth : Nat}

def tooDeep : DocumentError := .text .malformed

theorem liftText_within (n : Nat) (a : α) :
    liftText (within .malformed n a) = within tooDeep n a := by
  by_cases h : n ≤ maxDepth
  · rw [within_of_le h, within_of_le h]
    rfl
  · have hlt : maxDepth < n := Nat.lt_of_not_le h
    rw [within_of_lt hlt, within_of_lt hlt]
    rfl

theorem liftText_enter (depth : Nat) :
    liftText (enter depth) = within tooDeep (depth + 1) (depth + 1) := by
  rw [enter_eq_within, liftText_within]

theorem liftText_keyText (name : String) :
    liftText (Tree.keyText (.string (RawString.written name))) = .ok name := by
  rw [Tree.keyText_written]
  rfl

theorem liftText_value {v : Value} (free : v.NumberFree) (hdepth : depth ≤ maxDepth) :
    liftText (v.tree.value depth) = within tooDeep (depth + v.nesting) v := by
  rw [Tree.value_tree v free hdepth, liftText_within]

theorem readTagged_some {kind : TypeKind} (ms : List (String × Value))
    (free : Value.MembersNumberFree ms) (hkind : ∀ m ∈ ms, m.1 ≠ kindField)
    (hdepth : depth ≤ maxDepth) :
    readTagged depth (some kind) (Value.memberTrees ms) =
      within tooDeep (depth + Value.membersNesting ms) (some kind, ms) := by
  induction ms with
  | nil => exact (within_of_le hdepth).symm
  | cons m ms ih =>
      obtain ⟨name, v⟩ := m
      obtain ⟨hname, hms⟩ := List.forall_mem_cons.1 hkind
      rw [Value.MembersNumberFree] at free
      have hrest := map_within (ih free.2 hms) fun rest => (rest.1, (name, v) :: rest.2)
      rw [Value.memberTrees, readTagged, liftText_keyText, Value.membersNesting]
      change (if name = kindField then _ else _) = _
      rw [if_neg hname]
      exact bind_within (liftText_value free.1 hdepth) (fun _ => hrest) (by omega)

theorem readTagged_written {kind : TypeKind} {ms : List (String × Value)}
    (free : Value.MembersNumberFree ms) (hkind : ∀ m ∈ ms, m.1 ≠ kindField)
    (hdepth : depth ≤ maxDepth) :
    readTagged depth none (Value.memberTrees ((kindField, .string kind.word) :: ms)) =
      within tooDeep (depth + Value.membersNesting ms) (some kind, ms) := by
  have hread : fill kindField none (readTypeKind (Value.string kind.word).tree) =
      .ok (some kind) := by
    rw [Value.tree, readTypeKind, RawString.text_written]
    change (liftData (TypeKind.ofWord kind.word)).map some = _
    rw [TypeKind.ofWord_word]
    rfl
  have hkindFirst : readTagged depth none (Value.memberTrees ((kindField, .string kind.word) :: ms)) =
      (fill kindField none (readTypeKind (Value.string kind.word).tree) >>= fun kind =>
        readTagged depth kind (Value.memberTrees ms)) := by
    rw [Value.memberTrees, readTagged, liftText_keyText]
    simp only [bind, Except.bind, if_true]
  rw [hkindFirst, hread]
  exact readTagged_some ms free hkind hdepth

theorem readType_written (type : DartType) (depth : Nat) :
    readType depth (ofType type).tree = within tooDeep (depth + (ofType type).nesting) type := by
  have hmembers (hinner : depth + 1 ≤ maxDepth) :
      readTagged (depth + 1) none
          (Value.memberTrees ((kindField, .string type.kind.word) :: type.members)) =
        within tooDeep (depth + 1 + Value.membersNesting type.members) (some type.kind, type.members) :=
    readTagged_written (numberFree_members type) type.kindField_not_mem_members hinner
  have hfinish : liftData (typeOfMembers type.kind type.members) = .ok type := by
    rw [typeOfMembers_members]
    rfl
  rw [type.ofType_eq, Value.tree, readType, Value.nesting, Value.membersNesting, Value.nesting,
    Nat.zero_max]
  refine bind_within (m := depth + 1 + Value.membersNesting type.members) (liftText_enter depth)
    (fun hinner => ?_) (by omega)
  refine bind_within (m := 0) (hmembers hinner) (fun _ => ?_) (by omega)
  exact hfinish

end

end Document

end ActionWiring
