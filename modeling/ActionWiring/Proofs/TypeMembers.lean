import ActionWiring.Proofs.DraftSlots

namespace ActionWiring.Document

open Json

abbrev KindReader := Value → Except DataError TypeKind

section Drafts

def kindPut (read : KindReader) (found : Option TypeKind) (name : String) (v : Value) :
    Except DataError (Option TypeKind) :=
  if name = kindField then fillOnce kindField found (read v) else .ok found

def kindFound : Option TypeKind → Except DataError TypeKind
  | some kind => .ok kind
  | none => .error (.missingField kindField)

def kindAmong (read : KindReader) (ms : List (String × Value)) : Except DataError TypeKind :=
  ms.foldlM (fun found m => kindPut read found m.1 m.2) none >>= kindFound

def namePut (found : Option String) (name : String) (v : Value) :
    Except DataError (Option String) :=
  if name = "name" then fillOnce "name" found (textOf v) else .ok found

def namedFound : Option String → Except DataError DartType
  | some name => .ok (.named name)
  | none => .error (.missingField "name")

def GenericDraft.put (d : GenericDraft) (name : String) (v : Value) :
    Except DataError GenericDraft :=
  if name = "name" then do
    let name ← fillOnce "name" d.name (textOf v)
    return { d with name }
  else if name = "params" then do
    let params ← fillOnce "params" d.params (paramsOf v)
    return { d with params }
  else if name = "args" then do
    let args ← fillOnce "args" d.args (argsOf v)
    return { d with args }
  else .ok d

def ParamDraft.put (d : ParamDraft) (name : String) (v : Value) : Except DataError ParamDraft :=
  if name = "name" then do
    let name ← fillOnce "name" d.name (textOf v)
    return { d with name }
  else if name = "bound" then do
    let bound ← fillOnce "bound" d.bound (typeOf? v)
    return { d with bound }
  else .ok d

theorem taggedKind_eq (found : Option TypeKind) (ms : List (String × Value)) :
    taggedKind found ms =
      ms.foldlM (fun found m => kindPut TypeKind.ofValue found m.1 m.2) found >>= kindFound := by
  induction ms generalizing found with
  | nil => cases found <;> rfl
  | cons m ms ih =>
      rw [taggedKind, List.foldlM_cons, bind_assoc, kindPut]
      split
      · exact bind_congr fun kind => ih kind
      · exact ih found

theorem namedMembers_eq (found : Option String) (ms : List (String × Value)) :
    namedMembers found ms =
      ms.foldlM (fun found m => namePut found m.1 m.2) found >>= namedFound := by
  induction ms generalizing found with
  | nil => cases found <;> rfl
  | cons m ms ih =>
      rw [namedMembers, List.foldlM_cons, bind_assoc, namePut]
      split
      · exact bind_congr fun name => ih name
      · exact ih found

theorem genericMembers_eq (form : GenericForm) (d : GenericDraft) (ms : List (String × Value)) :
    genericMembers form d ms =
      ms.foldlM (fun d m => GenericDraft.put d m.1 m.2) d >>= GenericDraft.finish form := by
  induction ms generalizing d with
  | nil => rw [genericMembers]; rfl
  | cons m ms ih =>
      rw [genericMembers, List.foldlM_cons, bind_assoc, GenericDraft.put]
      split
      · exact bind_eq_bind_pure fun name => ih _
      · split
        · exact bind_eq_bind_pure fun params => ih _
        · split
          · exact bind_eq_bind_pure fun args => ih _
          · exact ih d

theorem paramMembers_eq (d : ParamDraft) (ms : List (String × Value)) :
    paramMembers d ms =
      ms.foldlM (fun d m => ParamDraft.put d m.1 m.2) d >>= ParamDraft.finish := by
  induction ms generalizing d with
  | nil => rw [paramMembers]; rfl
  | cons m ms ih =>
      rw [paramMembers, List.foldlM_cons, bind_assoc, ParamDraft.put]
      split
      · exact bind_eq_bind_pure fun name => ih _
      · split
        · exact bind_eq_bind_pure fun bound => ih _
        · exact ih d

end Drafts

section Slots

def kindSlots (read : KindReader) : List (Slot (Option TypeKind) Value) :=
  [.ofField kindField id (fun _ kind => kind) read]

def nameSlots : List (Slot (Option String) Value) :=
  [.ofField "name" id (fun _ name => name) textOf]

def genericSlots : List (Slot GenericDraft Value) :=
  [.ofField "name" GenericDraft.name (fun d name => { d with name }) textOf,
    .ofField "params" GenericDraft.params (fun d params => { d with params }) paramsOf,
    .ofField "args" GenericDraft.args (fun d args => { d with args }) argsOf]

def paramSlots : List (Slot ParamDraft Value) :=
  [.ofField "name" ParamDraft.name (fun d name => { d with name }) textOf,
    .ofField "bound" ParamDraft.bound (fun d bound => { d with bound }) typeOf?]

theorem Slotted.of_pass {δ : Type} {put : δ → String → Value → Except DataError δ}
    {slots : List (Slot δ Value)} (fits : ∀ s ∈ slots, s.Fits put)
    (pass : ∀ name, (∀ s ∈ slots, s.name ≠ name) → ∀ d v, put d name v = .ok d)
    (apart : slots.Pairwise Slot.Apart) : Slotted put slots where
  fits := fits
  other name hname d v d' h := by
    rw [pass name hname] at h
    cases h
    exact ⟨rfl, fun e => pass name hname e v⟩
  apart := apart

theorem pass_kind (read : KindReader) (name : String) (h : ∀ s ∈ kindSlots read, s.name ≠ name)
    (found : Option TypeKind) (v : Value) : kindPut read found name v = .ok found :=
  if_neg (List.forall_mem_singleton.1 h).symm

theorem pass_name (name : String) (h : ∀ s ∈ nameSlots, s.name ≠ name) (found : Option String)
    (v : Value) : namePut found name v = .ok found :=
  if_neg (List.forall_mem_singleton.1 h).symm

theorem pass_generic (name : String) (h : ∀ s ∈ genericSlots, s.name ≠ name) (d : GenericDraft)
    (v : Value) : d.put name v = .ok d := by
  simp only [genericSlots, List.forall_mem_cons, Slot.ofField, ne_comm (b := name)] at h
  simp [GenericDraft.put, h]

theorem pass_param (name : String) (h : ∀ s ∈ paramSlots, s.name ≠ name) (d : ParamDraft)
    (v : Value) : d.put name v = .ok d := by
  simp only [paramSlots, List.forall_mem_cons, Slot.ofField, ne_comm (b := name)] at h
  simp [ParamDraft.put, h]

theorem slotted_kind (read : KindReader) : Slotted (kindPut read) (kindSlots read) := by
  refine .of_pass (List.forall_mem_singleton.2 ?_) (pass_kind read) (List.pairwise_singleton _ _)
  exact .of_fillOnce (fun _ _ => rfl) fun _ _ => (bind_pure _).symm

theorem slotted_name : Slotted namePut nameSlots := by
  refine .of_pass (List.forall_mem_singleton.2 ?_) pass_name (List.pairwise_singleton _ _)
  exact .of_fillOnce (fun _ _ => rfl) fun _ _ => (bind_pure _).symm

theorem slotted_generic : Slotted GenericDraft.put genericSlots := by
  refine .of_pass ?_ pass_generic ?_
  · simp only [genericSlots, List.mem_cons, List.not_mem_nil, or_false, forall_eq_or_imp, forall_eq]
    and_intros <;> exact .of_fillOnce (fun _ _ => rfl) fun _ _ => rfl
  · simp only [genericSlots, List.pairwise_cons, List.mem_cons, List.not_mem_nil, or_false,
      forall_eq_or_imp, forall_eq, List.Pairwise.nil, IsEmpty.forall_iff, implies_true, and_true]
    and_intros <;> refine .of_fields ?_ (fun _ _ => rfl) (fun _ _ => rfl) fun _ _ _ => rfl
    all_goals decide

theorem slotted_param : Slotted ParamDraft.put paramSlots := by
  refine .of_pass ?_ pass_param (List.pairwise_pair.2 ?_)
  · simp only [paramSlots, List.mem_cons, List.not_mem_nil, or_false, forall_eq_or_imp, forall_eq]
    and_intros <;> exact .of_fillOnce (fun _ _ => rfl) fun _ _ => rfl
  · exact .of_fields (by decide) (fun _ _ => rfl) (fun _ _ => rfl) fun _ _ _ => rfl

end Slots

section Kinds

def typeBy (read : KindReader) : Value → Except DataError (Option DartType)
  | .null => .ok none
  | .array [] => .error (.missingField kindField)
  | .array (v :: vs) => do
      let kind ← read v
      let type ← typeOfElements kind vs
      return some type
  | .object ms => do
      let kind ← kindAmong read ms
      let type ← typeOfMembers kind ms
      return some type
  | v => .error (.unexpected (.ofValue v) (.ofShape .typeReference))

theorem typeOf?_eq_typeBy (v : Value) : typeOf? v = typeBy TypeKind.ofValue v := by
  match v with
  | .null | .array [] | .bool _ | .number _ | .string _ => simp only [typeOf?, typeBy]
  | .array (v :: vs) => rw [typeOf?, typeBy]; rfl
  | .object ms => rw [typeOf?, typeBy, kindAmong, ← taggedKind_eq]; rfl

end Kinds

end ActionWiring.Document
