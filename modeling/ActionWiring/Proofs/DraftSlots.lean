import ActionWiring.Document.Reading
import ActionWiring.Proofs.MemberOrder

namespace ActionWiring.Document

open Json

section Filling

variable {α δ V : Type} {name : String} {d d' : δ}

theorem fill_eq_ok {slot slot' : Option α} {read : Except DocumentError α} :
    fill name slot read = .ok slot' ↔ slot = none ∧ ∃ a, read = .ok a ∧ some a = slot' := by
  cases slot with
  | none => simp [fill, map_eq_ok]
  | some a => simp [fill]

theorem fillOnce_eq_ok {slot slot' : Option α} {read : Except DataError α} :
    fillOnce name slot read = .ok slot' ↔ slot = none ∧ ∃ a, read = .ok a ∧ some a = slot' := by
  cases slot with
  | none => simp [fillOnce, map_eq_ok]
  | some a => simp [fillOnce]

theorem ignore_eq_ok {tree : Tree} : ignore d tree = .ok d' ↔ tree.skip = .ok () ∧ d = d' := by
  simp only [ignore, liftText, bind_pure_eq_ok, mapError_eq_ok]
  constructor
  · rintro ⟨⟨⟩, h, hd⟩
    exact ⟨h, hd⟩
  · rintro ⟨h, hd⟩
    exact ⟨(), h, hd⟩

theorem filled_bind_eq_ok {ε : Type} {filled : Except ε (Option α)} {vacant : Prop}
    {found : α → Prop} {set : Option α → δ}
    (h : ∀ slot', filled = .ok slot' ↔ vacant ∧ ∃ a, found a ∧ some a = slot') :
    (filled >>= fun slot => pure (set slot)) = .ok d ↔
      vacant ∧ ∃ a, found a ∧ set (some a) = d := by
  simp only [bind_pure_eq_ok, h]
  constructor
  · rintro ⟨_, ⟨hvacant, a, ha, rfl⟩, hd⟩
    exact ⟨hvacant, a, ha, hd⟩
  · rintro ⟨hvacant, a, ha, hd⟩
    exact ⟨some a, ⟨hvacant, a, ha, rfl⟩, hd⟩

theorem fill_bind_eq_ok {slot : Option α} {read : Except DocumentError α} {set : Option α → δ} :
    (fill name slot read >>= fun slot => pure (set slot)) = .ok d ↔
      slot = none ∧ ∃ a, read = .ok a ∧ set (some a) = d :=
  filled_bind_eq_ok fun _ => fill_eq_ok

theorem fillOnce_bind_eq_ok {slot : Option α} {read : Except DataError α} {set : Option α → δ} :
    (fillOnce name slot read >>= fun slot => pure (set slot)) = .ok d ↔
      slot = none ∧ ∃ a, read = .ok a ∧ set (some a) = d :=
  filled_bind_eq_ok fun _ => fillOnce_eq_ok

variable {get : δ → Option α} {set : δ → Option α → δ}

theorem Slot.Fits.of_fill {put : δ → String → Tree → Except DocumentError δ}
    {read : Tree → Except DocumentError α} (hget : ∀ d b, get (set d b) = b)
    (hput : ∀ d tree, put d name tree =
      (fill name (get d) (read tree) >>= fun slot => pure (set d slot))) :
    (ofField name get set read).Fits put := by
  refine .of_field hget fun d tree d' => ?_
  rw [hput, fill_bind_eq_ok]

theorem Slot.Fits.of_fillOnce {put : δ → String → Value → Except DataError δ}
    {read : Value → Except DataError α} (hget : ∀ d b, get (set d b) = b)
    (hput : ∀ d v, put d name v =
      (fillOnce name (get d) (read v) >>= fun slot => pure (set d slot))) :
    (ofField name get set read).Fits put := by
  refine .of_field hget fun d v d' => ?_
  rw [hput, fillOnce_bind_eq_ok]

theorem Slotted.of_ignored {put : δ → String → Tree → Except DocumentError δ}
    {slots : List (Slot δ Tree)} (fits : ∀ s ∈ slots, s.Fits put)
    (ignored : ∀ name, (∀ s ∈ slots, s.name ≠ name) → ∀ d tree, put d name tree = ignore d tree)
    (apart : slots.Pairwise Slot.Apart) : Slotted put slots where
  fits := fits
  other name hname d tree d' h := by
    rw [ignored name hname] at h
    obtain ⟨hskip, rfl⟩ := ignore_eq_ok.1 h
    exact ⟨rfl, fun e => (ignored name hname e tree).trans (ignore_eq_ok.2 ⟨hskip, rfl⟩)⟩
  apart := apart

end Filling

section Records

variable (depth : Nat)

def constructorSlots : List (Slot (Option String) Tree) :=
  [.ofField "name" id (fun _ name => name) readText]

def fieldSlots : List (Slot FieldDraft Tree) :=
  [.ofField "name" FieldDraft.name (fun d name => { d with name }) readText,
    .ofField "type" FieldDraft.type (fun d type => { d with type }) (readType depth)]

def declarationSlots : List (Slot DeclarationDraft Tree) :=
  [.ofField "name" DeclarationDraft.name (fun d name => { d with name }) readText,
    .ofField "display_name" DeclarationDraft.displayName
      (fun d displayName => { d with displayName }) readText?,
    .ofField "kind" DeclarationDraft.kind (fun d kind => { d with kind }) (readKind depth),
    .ofField "constructors" DeclarationDraft.constructors
      (fun d constructors => { d with constructors }) (readList constructorRecord.read depth),
    .ofField "fields" DeclarationDraft.fields (fun d fields => { d with fields })
      (readList fieldRecord.read depth),
    .ofField "supertypes" DeclarationDraft.supertypes (fun d supertypes => { d with supertypes })
      (readList (fun _ => readText) depth)]

def unitSlots : List (Slot UnitDraft Tree) :=
  [.ofField "declarations" UnitDraft.declarations (fun d declarations => { d with declarations })
      (readList declarationRecord.read depth),
    .ofField "library" UnitDraft.library (fun d library => { d with library })
      (readList declarationRecord.read depth)]

theorem ignored_constructor (name : String) (h : ∀ s ∈ constructorSlots, s.name ≠ name)
    (d : Option String) (tree : Tree) : constructorRecord.put depth d name tree = ignore d tree :=
  if_neg (List.forall_mem_singleton.1 h).symm

theorem ignored_field (name : String) (h : ∀ s ∈ fieldSlots depth, s.name ≠ name) (d : FieldDraft)
    (tree : Tree) : fieldRecord.put depth d name tree = ignore d tree := by
  simp only [fieldSlots, List.forall_mem_cons, Slot.ofField, ne_comm (b := name)] at h
  simp [fieldRecord, h]

theorem ignored_declaration (name : String) (h : ∀ s ∈ declarationSlots depth, s.name ≠ name)
    (d : DeclarationDraft) (tree : Tree) :
    declarationRecord.put depth d name tree = ignore d tree := by
  simp only [declarationSlots, List.forall_mem_cons, Slot.ofField, ne_comm (b := name)] at h
  simp [declarationRecord, h]

theorem ignored_unit (name : String) (h : ∀ s ∈ unitSlots depth, s.name ≠ name) (d : UnitDraft)
    (tree : Tree) : unitRecord.put depth d name tree = ignore d tree := by
  simp only [unitSlots, List.forall_mem_cons, Slot.ofField, ne_comm (b := name)] at h
  simp [unitRecord, h]

theorem slotted_constructor : Slotted (constructorRecord.put depth) constructorSlots := by
  refine .of_ignored (List.forall_mem_singleton.2 ?_) (ignored_constructor depth)
    (List.pairwise_singleton _ _)
  exact .of_fill (fun _ _ => rfl) fun _ _ => (bind_pure _).symm

theorem slotted_field : Slotted (fieldRecord.put depth) (fieldSlots depth) := by
  refine .of_ignored ?_ (ignored_field depth) (List.pairwise_pair.2 ?_)
  · simp only [fieldSlots, List.mem_cons, List.not_mem_nil, or_false, forall_eq_or_imp, forall_eq]
    and_intros <;> exact .of_fill (fun _ _ => rfl) fun _ _ => rfl
  · exact .of_fields (by decide) (fun _ _ => rfl) (fun _ _ => rfl) fun _ _ _ => rfl

theorem slotted_declaration : Slotted (declarationRecord.put depth) (declarationSlots depth) := by
  refine .of_ignored ?_ (ignored_declaration depth) ?_
  · simp only [declarationSlots, List.mem_cons, List.not_mem_nil, or_false, forall_eq_or_imp,
      forall_eq]
    and_intros <;> exact .of_fill (fun _ _ => rfl) fun _ _ => rfl
  · simp only [declarationSlots, List.pairwise_cons, List.mem_cons, List.not_mem_nil, or_false,
      forall_eq_or_imp, forall_eq, List.Pairwise.nil, IsEmpty.forall_iff, implies_true, and_true]
    and_intros <;> refine .of_fields ?_ (fun _ _ => rfl) (fun _ _ => rfl) fun _ _ _ => rfl
    all_goals decide

theorem slotted_unit : Slotted (unitRecord.put depth) (unitSlots depth) := by
  refine .of_ignored ?_ (ignored_unit depth) (List.pairwise_pair.2 ?_)
  · simp only [unitSlots, List.mem_cons, List.not_mem_nil, or_false, forall_eq_or_imp, forall_eq]
    and_intros <;> exact .of_fill (fun _ _ => rfl) fun _ _ => rfl
  · exact .of_fields (by decide) (fun _ _ => rfl) (fun _ _ => rfl) fun _ _ _ => rfl

end Records

end ActionWiring.Document
