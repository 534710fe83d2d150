import ActionWiring.Proofs.WrittenTypes

namespace ActionWiring.Document

open Json

section

variable {α β : Type} {read : Nat → Tree → Except DocumentError α} {write : α → Value}
  {depth n : Nat}

def ReadsBack (read : Nat → Tree → Except DocumentError α) (write : α → Value) : Prop :=
  ∀ a depth, depth ≤ maxDepth →
    read depth (write a).tree = within tooDeep (depth + (write a).nesting) a

theorem readsBack_text : ReadsBack (fun _ => readText) Value.string := by
  intro s depth hdepth
  have htext : readText (.string (RawString.written s)) = .ok s := by
    rw [readText.eq_def]
    exact congrArg liftText (RawString.text_written s)
  exact htext.trans (within_of_le hdepth).symm

theorem readsBack_text? : ReadsBack (fun _ => readText?) fun text? => text?.elim .null .string := by
  intro text? depth hdepth
  cases text? with
  | none => exact (within_of_le hdepth).symm
  | some s => exact map_within (readsBack_text s depth hdepth) some

theorem readsBack_type : ReadsBack readType ofType :=
  fun type depth _ => readType_written type depth

theorem readsBack_kind : ReadsBack readKind fun kind => .string kind.word := by
  intro kind depth hdepth
  have hword : liftData (declarationKindOf kind.word) = .ok kind := by
    rw [declarationKindOf, DeclarationKind.ofWord?_word]
    rfl
  rw [Value.tree, readKind, RawString.text_written]
  exact hword.trans (within_of_le hdepth).symm

theorem mapM_written (back : ReadsBack read write) (xs : List α) (hdepth : depth ≤ maxDepth) :
    (Value.trees (xs.map write)).mapM (read depth) =
      within tooDeep (depth + Value.nestingAll (xs.map write)) xs := by
  induction xs with
  | nil => exact (within_of_le hdepth).symm
  | cons x xs ih =>
      have hrest := map_within ih fun xs => x :: xs
      rw [List.map_cons, Value.trees, List.mapM_cons, Value.nestingAll]
      exact bind_within (back x depth hdepth) (fun _ => hrest) (by omega)

theorem ReadsBack.list (back : ReadsBack read write) :
    ReadsBack (readList read) fun xs => .array (xs.map write) := by
  intro xs depth _
  have hitems := fun hinner : depth + 1 ≤ maxDepth =>
    map_within (mapM_written back xs hinner) fun xs => xs
  rw [Value.tree, readList, Value.nesting]
  exact bind_within (liftText_enter depth) hitems (by omega)

theorem fill_within {x : Except DocumentError α} {a : α} (hx : x = within tooDeep n a)
    (name : String) : fill name none x = within tooDeep n (some a) := by
  rw [← map_within hx some]
  cases x with
  | ok a => rfl
  | error e => rfl

end

namespace Record

variable {δ α : Type} {r : Record δ α} {draft next final : δ} {name : String} {v : Value}
  {ms : List (String × Value)}

def PutsOne (r : Record δ α) (draft : δ) (name : String) (v : Value) (next : δ) : Prop :=
  ∀ depth, depth ≤ maxDepth →
    r.put depth draft name v.tree = within tooDeep (depth + v.nesting) next

def Puts (r : Record δ α) (draft : δ) (ms : List (String × Value)) (final : δ) : Prop :=
  ∀ depth, depth ≤ maxDepth →
    r.putMembers depth draft (Value.memberTrees ms) =
      within tooDeep (depth + Value.membersNesting ms) final

theorem puts_nil : r.Puts draft [] draft :=
  fun _ hdepth => (within_of_le hdepth).symm

theorem PutsOne.cons (one : r.PutsOne draft name v next) (rest : r.Puts next ms final) :
    r.Puts draft ((name, v) :: ms) final := by
  intro depth hdepth
  rw [Value.memberTrees, putMembers, liftText_keyText, Value.membersNesting]
  change (r.put depth draft name v.tree >>= fun draft =>
    r.putMembers depth draft (Value.memberTrees ms)) = _
  exact bind_within (one depth hdepth) (fun _ => rest depth hdepth) (by omega)

theorem PutsOne.of_readsBack {β : Type} {read : Nat → Tree → Except DocumentError β}
    {write : β → Value} (back : ReadsBack read write) (b : β) (set : Option β → δ)
    (hput : ∀ depth tree, r.put depth draft name tree =
      (fill name none (read depth tree) >>= fun slot => pure (set slot))) :
    r.PutsOne draft name (write b) (set (some b)) := by
  intro depth hdepth
  rw [hput]
  exact map_within (fill_within (back b depth hdepth) name) set

theorem Puts.read {a : α} (puts : r.Puts r.blank ms final) (hfinish : r.finish final = .ok a)
    (depth : Nat) :
    r.read depth (Value.object ms).tree = within tooDeep (depth + (Value.object ms).nesting) a := by
  have hmembers (hinner : depth + 1 ≤ maxDepth) :
      (r.putMembers (depth + 1) r.blank (Value.memberTrees ms) >>= r.finish) =
        within tooDeep (depth + 1 + Value.membersNesting ms) a :=
    bind_within (m := 0) (puts (depth + 1) hinner) (fun _ => hfinish) (by omega)
  rw [Value.tree, Record.read, Value.nesting]
  exact bind_within (liftText_enter depth) hmembers (by omega)

end Record

theorem readsBack_constructor : ReadsBack constructorRecord.read ofConstructor := by
  intro c depth _
  have hname : constructorRecord.PutsOne none "name" (.string c.name) (some c.name) :=
    .of_readsBack readsBack_text c.name id fun _ _ => (bind_pure _).symm
  exact (hname.cons Record.puts_nil).read rfl depth

theorem readsBack_field : ReadsBack fieldRecord.read ofField := by
  intro f depth _
  have hname : fieldRecord.PutsOne {} "name" (.string f.name) ⟨some f.name, none⟩ :=
    .of_readsBack readsBack_text f.name (FieldDraft.mk · none) fun _ _ => rfl
  have htype : fieldRecord.PutsOne ⟨some f.name, none⟩ "type" (ofType f.type)
      ⟨some f.name, some f.type⟩ :=
    .of_readsBack readsBack_type f.type (FieldDraft.mk (some f.name)) fun _ _ => rfl
  exact (hname.cons (htype.cons Record.puts_nil)).read rfl depth

section

variable (d : Declaration)

def namedDraft : DeclarationDraft :=
  { name := some d.name, displayName := d.displayName?.map some }

def wholeDraft : DeclarationDraft :=
  { namedDraft d with
    kind := some d.kind
    constructors := some d.constructors
    fields := some d.fields
    supertypes := some d.supertypes }

theorem puts_membersAfterNames :
    declarationRecord.Puts (namedDraft d)
      [("kind", .string d.kind.word),
        ("constructors", .array (d.constructors.map ofConstructor)),
        ("fields", .array (d.fields.map ofField)),
        ("supertypes", .array (d.supertypes.map .string))] (wholeDraft d) := by
  have hkind : declarationRecord.PutsOne (namedDraft d) "kind" (.string d.kind.word)
      { namedDraft d with kind := some d.kind } :=
    .of_readsBack readsBack_kind d.kind (fun kind => { namedDraft d with kind }) fun _ _ => rfl
  have hconstructors : declarationRecord.PutsOne { namedDraft d with kind := some d.kind }
      "constructors" (.array (d.constructors.map ofConstructor))
      { namedDraft d with kind := some d.kind, constructors := some d.constructors } :=
    .of_readsBack readsBack_constructor.list d.constructors
      (fun constructors => { namedDraft d with kind := some d.kind, constructors }) fun _ _ => rfl
  have hfields : declarationRecord.PutsOne
      { namedDraft d with kind := some d.kind, constructors := some d.constructors }
      "fields" (.array (d.fields.map ofField))
      { namedDraft d with
        kind := some d.kind, constructors := some d.constructors, fields := some d.fields } :=
    .of_readsBack readsBack_field.list d.fields
      (fun fields => { namedDraft d with
        kind := some d.kind, constructors := some d.constructors, fields }) fun _ _ => rfl
  have hsupertypes : declarationRecord.PutsOne
      { namedDraft d with
        kind := some d.kind, constructors := some d.constructors, fields := some d.fields }
      "supertypes" (.array (d.supertypes.map .string)) (wholeDraft d) :=
    .of_readsBack readsBack_text.list d.supertypes
      (fun supertypes => { wholeDraft d with supertypes }) fun _ _ => rfl
  exact hkind.cons (hconstructors.cons (hfields.cons (hsupertypes.cons Record.puts_nil)))

theorem puts_names {ms : List (String × Value)} {final : DeclarationDraft}
    (rest : declarationRecord.Puts (namedDraft d) ms final) :
    declarationRecord.Puts {} (("name", .string d.name) :: displayNameMember d.displayName? ++ ms)
      final := by
  have hname : declarationRecord.PutsOne {} "name" (.string d.name) { name := some d.name } :=
    .of_readsBack readsBack_text d.name (fun name => { name : DeclarationDraft }) fun _ _ => rfl
  refine hname.cons ?_
  rw [namedDraft] at rest
  cases hshown : d.displayName? with
  | none =>
      rw [hshown] at rest
      exact rest
  | some shown =>
      have hdisplayName : declarationRecord.PutsOne { name := some d.name } "display_name"
          (.string shown) { name := some d.name, displayName := some (some shown) } :=
        .of_readsBack readsBack_text? (some shown)
          (fun displayName => { name := some d.name, displayName : DeclarationDraft })
          fun _ _ => rfl
      rw [hshown] at rest
      exact hdisplayName.cons rest

end

theorem readsBack_declaration : ReadsBack declarationRecord.read ofDeclaration := by
  intro d depth _
  have hfinish : declarationRecord.finish (wholeDraft d) = .ok d := by
    have hshown : (d.displayName?.map some).join = d.displayName? := by
      cases d.displayName? with
      | none => rfl
      | some shown => rfl
    change Except.ok { d with displayName? := (d.displayName?.map some).join } = _
    rw [hshown]
  exact (puts_names d (puts_membersAfterNames d)).read hfinish depth

theorem read_unit (u : CompilationUnit) (depth : Nat) :
    unitRecord.read depth (ofUnit u).tree =
      within tooDeep (depth + (ofUnit u).nesting) (.ofLists u.own u.library) := by
  have hown : unitRecord.PutsOne {} "declarations" (.array (u.own.map ofDeclaration))
      ⟨some u.own, none⟩ :=
    .of_readsBack readsBack_declaration.list u.own (UnitDraft.mk · none) fun _ _ => rfl
  have hlibrary : unitRecord.PutsOne ⟨some u.own, none⟩ "library"
      (.array (u.library.map ofDeclaration)) ⟨some u.own, some u.library⟩ :=
    .of_readsBack readsBack_declaration.list u.library (UnitDraft.mk (some u.own)) fun _ _ => rfl
  exact (hown.cons (hlibrary.cons Record.puts_nil)).read rfl depth

theorem allNumberFree_map {α : Type} {write : α → Value} (free : ∀ a, (write a).NumberFree)
    (as : List α) : Value.AllNumberFree (as.map write) := by
  induction as with
  | nil => trivial
  | cons a as ih =>
      rw [List.map_cons, Value.AllNumberFree]
      exact ⟨free a, ih⟩

theorem numberFree_ofConstructor (c : Constructor) : (ofConstructor c).NumberFree := by
  simp [ofConstructor, Value.NumberFree, Value.MembersNumberFree]

theorem numberFree_ofField (f : Field) : (ofField f).NumberFree := by
  simp [ofField, Value.NumberFree, Value.MembersNumberFree, numberFree_ofType]

theorem numberFree_ofDeclaration (d : Declaration) : (ofDeclaration d).NumberFree := by
  have hconstructors := allNumberFree_map numberFree_ofConstructor d.constructors
  have hfields := allNumberFree_map numberFree_ofField d.fields
  have htext (s : String) : (Value.string s).NumberFree := trivial
  have hsupertypes := allNumberFree_map htext d.supertypes
  cases hshown : d.displayName? with
  | none =>
      simp [ofDeclaration, displayNameMember, hshown, Value.NumberFree, Value.MembersNumberFree,
        hconstructors, hfields, hsupertypes]
  | some shown =>
      simp [ofDeclaration, displayNameMember, hshown, Value.NumberFree, Value.MembersNumberFree,
        hconstructors, hfields, hsupertypes]

theorem numberFree_ofUnit (u : CompilationUnit) : (ofUnit u).NumberFree := by
  have hown := allNumberFree_map numberFree_ofDeclaration u.own
  have hlibrary := allNumberFree_map numberFree_ofDeclaration u.library
  simp [ofUnit, Value.NumberFree, Value.MembersNumberFree, hown, hlibrary]

end ActionWiring.Document
