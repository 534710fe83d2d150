import ActionWiring.Proofs.SkippedTrees

namespace ActionWiring.Document

open Json

section Readers

inductive Describes : Role → {δ α : Type} → Record δ α → Prop
  | unit : Describes .unit unitRecord
  | declaration : Describes .declaration declarationRecord
  | constructor : Describes .constructor constructorRecord
  | field : Describes .field fieldRecord

inductive Reader : Role → (α : Type) → (Nat → Tree → Except DocumentError α) → Prop
  | record {role : Role} {δ α : Type} {r : Record δ α} (h : Describes role r) : Reader role α r.read
  | type : Reader .type _ readType
  | list {item : Role} {α : Type} {read : Nat → Tree → Except DocumentError α}
      (h : Reader item α read) : Reader (.list item) _ (readList read)
  | text : Reader .other _ fun _ => readText
  | text? : Reader .other _ fun _ => readText?
  | kind : Reader .other _ readKind
  | skip {role : Role} : Reader role _ fun _ tree => liftText tree.skip

def Role.Keeps (role : Role) (tree tree' : Tree) : Prop :=
  ∀ ⦃α : Type⦄ ⦃read : Nat → Tree → Except DocumentError α⦄, Reader role α read →
    ∀ ⦃depth : Nat⦄ ⦃a : α⦄, read depth tree = .ok a → read depth tree' = .ok a

def Role.KeepsAt (role : Role) (m m' : String × Tree) : Prop :=
  m.1 = m'.1 ∧ (role.member m.1).Keeps m.2 m'.2

end Readers

variable {role : Role} {δ α : Type} {r : Record δ α} {depth : Nat} {tree tree' : Tree}

section Slots

def Slot.Keeps (part : Role) (s : Slot δ Tree) : Prop :=
  ∀ ⦃tree tree' : Tree⦄, part.Keeps tree tree' →
    ∀ ⦃f : δ → δ⦄, s.store tree = some f → s.store tree' = some f

theorem Slot.Keeps.of_reader {part : Role} {name : String} {get : δ → Option α}
    {set : δ → Option α → δ} {read : Nat → Tree → Except DocumentError α} (depth : Nat)
    (h : Reader part α read) : (Slot.ofField name get set (read depth)).Keeps part :=
  fun _ _ hkeeps _ => Slot.ofField_exchange fun _ hread => hkeeps h hread

structure SlotsFor (role : Role) (put : δ → String → Tree → Except DocumentError δ)
    (slots : List (Slot δ Tree)) : Prop extends Slotted put slots where
  ignored : ∀ name, (∀ s ∈ slots, s.name ≠ name) → ∀ d tree, put d name tree = ignore d tree
  keeps : ∀ s ∈ slots, s.Keeps (role.member s.name)

theorem slotsFor_constructor (depth : Nat) :
    SlotsFor .constructor (constructorRecord.put depth) constructorSlots where
  toSlotted := slotted_constructor depth
  ignored := ignored_constructor depth
  keeps := List.forall_mem_singleton.2 (.of_reader depth .text)

theorem slotsFor_field (depth : Nat) :
    SlotsFor .field (fieldRecord.put depth) (fieldSlots depth) where
  toSlotted := slotted_field depth
  ignored := ignored_field depth
  keeps := by
    simp only [fieldSlots, List.mem_cons, List.not_mem_nil, or_false, forall_eq_or_imp, forall_eq]
    exact ⟨.of_reader depth .text, .of_reader depth .type⟩

theorem slotsFor_declaration (depth : Nat) :
    SlotsFor .declaration (declarationRecord.put depth) (declarationSlots depth) where
  toSlotted := slotted_declaration depth
  ignored := ignored_declaration depth
  keeps := by
    simp only [declarationSlots, List.mem_cons, List.not_mem_nil, or_false, forall_eq_or_imp,
      forall_eq]
    exact ⟨.of_reader depth .text, .of_reader depth .text?, .of_reader depth .kind,
      .of_reader depth (.list (.record .constructor)), .of_reader depth (.list (.record .field)),
      .of_reader depth (.list .text)⟩

theorem slotsFor_unit (depth : Nat) : SlotsFor .unit (unitRecord.put depth) (unitSlots depth) where
  toSlotted := slotted_unit depth
  ignored := ignored_unit depth
  keeps := by
    simp only [unitSlots, List.mem_cons, List.not_mem_nil, or_false, forall_eq_or_imp, forall_eq]
    exact ⟨.of_reader depth (.list (.record .declaration)),
      .of_reader depth (.list (.record .declaration))⟩

theorem Describes.slotsFor (h : Describes role r) (depth : Nat) :
    ∃ slots, SlotsFor role (r.put depth) slots := by
  cases h with
  | unit => exact ⟨_, slotsFor_unit depth⟩
  | declaration => exact ⟨_, slotsFor_declaration depth⟩
  | constructor => exact ⟨_, slotsFor_constructor depth⟩
  | field => exact ⟨_, slotsFor_field depth⟩

theorem Describes.put_keeps (h : Describes role r) {name : String} {d d' : δ}
    (hkeeps : (role.member name).Keeps tree tree') (hput : r.put depth d name tree = .ok d') :
    r.put depth d name tree' = .ok d' := by
  obtain ⟨slots, hslots⟩ := h.slotsFor depth
  refine hslots.exchange (fun s hs hname f hf => ?_) (fun hother d hpass => ?_) hput
  · subst hname
    exact hslots.keeps s hs hkeeps hf
  · rw [hslots.ignored name hother, ignore_eq_ok] at hpass ⊢
    have hskip : liftText tree'.skip = .ok () :=
      @hkeeps _ _ .skip depth _ (mapError_eq_ok.2 hpass.1)
    exact ⟨mapError_eq_ok.1 hskip, hpass.2⟩

end Slots

section Defaults

variable {name : String}

theorem finish_of_default_unit (hdefault : Role.unit.IsDefault name tree) {d d' : UnitDraft}
    (hput : unitRecord.put depth d name tree = .ok d') :
    unitRecord.finish d' = unitRecord.finish d := by
  cases hdefault with
  | emptyList hmember =>
      have hpart := Role.mem_parts_of_member hmember
      simp only [Role.parts, List.mem_cons, Prod.mk.injEq, List.not_mem_nil, or_false] at hpart
      rcases hpart with ⟨rfl, -⟩ | ⟨rfl, -⟩
      all_goals
        obtain ⟨hnone, _, hread, rfl⟩ := fill_bind_eq_ok.1 hput
        cases readList_nil hread
        simp only [unitRecord, hnone, Option.getD_some, Option.getD_none]

theorem finish_of_default_declaration (hdefault : Role.declaration.IsDefault name tree)
    {d d' : DeclarationDraft} (hput : declarationRecord.put depth d name tree = .ok d') :
    declarationRecord.finish d' = declarationRecord.finish d := by
  cases hdefault with
  | emptyList hmember =>
      have hpart := Role.mem_parts_of_member hmember
      simp only [Role.parts, List.mem_cons, Prod.mk.injEq, reduceCtorEq, and_false, false_or,
        List.not_mem_nil, or_false] at hpart
      rcases hpart with ⟨rfl, -⟩ | ⟨rfl, -⟩ | ⟨rfl, -⟩
      all_goals
        obtain ⟨hnone, _, hread, rfl⟩ := fill_bind_eq_ok.1 hput
        cases readList_nil hread
        simp only [declarationRecord, hnone, Option.getD_some, Option.getD_none]
  | noDisplayName =>
      obtain ⟨hnone, _, ⟨⟩, rfl⟩ := fill_bind_eq_ok.1 hput
      simp only [declarationRecord, hnone, Option.join_some, Option.join_none]
  | classWord hword =>
      obtain ⟨hnone, kind, hread, rfl⟩ := fill_bind_eq_ok.1 hput
      cases readKind_word hword hread
      simp only [declarationRecord, hnone, Option.getD_some, Option.getD_none]
  | classObject hword =>
      obtain ⟨hnone, kind, hread, rfl⟩ := fill_bind_eq_ok.1 hput
      obtain ⟨_, word, ⟨⟩, -, hkey, hkind⟩ := readKind_object hread
      cases hword.symm.trans hkey
      cases hkind
      simp only [declarationRecord, hnone, Option.getD_some, Option.getD_none]

theorem finish_of_default_constructor (hdefault : Role.constructor.IsDefault name tree)
    {d d' : Option String} (hput : constructorRecord.put depth d name tree = .ok d') :
    constructorRecord.finish d' = constructorRecord.finish d := by
  cases hdefault with
  | emptyList hmember =>
      have hpart := Role.mem_parts_of_member hmember
      simp [Role.parts] at hpart
  | unnamed hname =>
      obtain ⟨rfl, text, hread, rfl⟩ := fill_eq_ok.1 hput
      cases hname.symm.trans (readText_eq_ok.1 hread)
      rfl

theorem Describes.finish_of_default (h : Describes role r) (hdefault : role.IsDefault name tree)
    {d d' : δ} (hput : r.put depth d name tree = .ok d') : r.finish d' = r.finish d := by
  cases h with
  | unit => exact finish_of_default_unit hdefault hput
  | declaration => exact finish_of_default_declaration hdefault hput
  | constructor => exact finish_of_default_constructor hdefault hput
  | field =>
      cases hdefault with
      | emptyList hmember =>
          have hpart := Role.mem_parts_of_member hmember
          simp [Role.parts] at hpart

theorem Describes.tolerant (h : Describes role r) (depth : Nat) :
    Tolerant role.KeepsAt (fun m => role.IsDefault m.1 m.2) fun ms =>
      ms.foldlM (fun d m => r.put depth d m.1 m.2) r.blank >>= r.finish := by
  obtain ⟨slots, hslots⟩ := h.slotsFor depth
  refine hslots.commutes.tolerant r.blank ?_ ?_
  · rintro ⟨name, tree⟩ ⟨_, tree'⟩ ⟨rfl, hkeeps⟩ d d' hput
    exact h.put_keeps hkeeps hput
  · rintro ⟨name, tree⟩ hdefault d d' a hput hfinish
    rw [← hfinish, h.finish_of_default hdefault hput]

end Defaults

section Records

theorem putElements_item {front back : List Tree} {a b : Tree} {names : List String} {d final : δ}
    (hput : ∀ name ∈ names[front.length]?, ∀ d d', r.put depth d name a = .ok d' →
      r.put depth d name b = .ok d')
    (h : r.putElements depth d names (front ++ a :: back) = .ok final) :
    r.putElements depth d names (front ++ b :: back) = .ok final := by
  induction front generalizing d names with
  | nil =>
      cases names with
      | nil => cases h
      | cons name names =>
          obtain ⟨d', ha, hback⟩ := bind_eq_ok.1 h
          exact bind_eq_ok.2 ⟨d', hput name rfl d d' ha, hback⟩
  | cons x front ih =>
      cases names with
      | nil => cases h
      | cons name names =>
          obtain ⟨d', hx, hrest⟩ := bind_eq_ok.1 h
          exact bind_eq_ok.2 ⟨d', hx, ih hput hrest⟩

theorem Role.element_eq_member (role : Role) {i : Nat} {name : String}
    (h : (role.parts.map Prod.fst)[i]? = some name) : role.element i = role.member name := by
  cases role with
  | list item => cases h
  | other => cases h
  | constructor => rcases i with _ | i <;> cases h; rfl
  | unit | field | typeParameter => rcases i with _ | _ | i <;> cases h <;> rfl
  | type => rcases i with _ | _ | _ | _ | i <;> cases h <;> rfl
  | declaration => rcases i with _ | _ | _ | _ | _ | _ | i <;> cases h <;> rfl

theorem Describes.parts (h : Describes role r) : role.parts.map Prod.fst = r.fields := by
  cases h <;> rfl

theorem Describes.read_item (h : Describes role r) {front back : List Tree} {a b : Tree}
    {fault : Option Fault} (hkeeps : (role.element front.length).Keeps a b) {x : α}
    (hread : r.read depth (.array (front ++ a :: back) fault) = .ok x) :
    r.read depth (.array (front ++ b :: back) fault) = .ok x := by
  obtain ⟨inner, hinner, hread⟩ := bind_eq_ok.1 hread
  obtain ⟨d, hput, hfinish⟩ := bind_eq_ok.1 hread
  have hput' := putElements_item (fun name hname d d' ha => by
    rw [← h.parts] at hname
    rw [role.element_eq_member hname] at hkeeps
    exact h.put_keeps hkeeps ha) hput
  refine bind_eq_ok.2 ⟨inner, hinner, bind_eq_ok.2 ⟨d, hput', ?_⟩⟩
  simpa only [List.length_append, List.length_cons] using hfinish

theorem Describes.read_member (h : Describes role r) {front back : List (Tree × Tree)}
    {key a b : Tree} {fault : Option Fault} (hkeeps : (role.under key).Keeps a b) {x : α}
    (hread : r.read depth (.object (front ++ (key, a) :: back) fault) = .ok x) :
    r.read depth (.object (front ++ (key, b) :: back) fault) = .ok x := by
  obtain ⟨inner, ms, hinner, hms, hclosing, hread⟩ := read_object_eq_ok.1 hread
  obtain ⟨front', m, back', hfront, ⟨hkey, rfl⟩, hback, rfl⟩ := forall₂_append_cons_left.1 hms
  rw [Role.under_eq hkey] at hkeeps
  have hm : Named (key, b) (m.1, b) := ⟨hkey, rfl⟩
  have hms' := forall₂_append_cons_left.2 ⟨front', _, back', hfront, hm, hback, rfl⟩
  have hkeepsAt : role.KeepsAt m (m.1, b) := ⟨rfl, hkeeps⟩
  exact read_object_eq_ok.2
    ⟨inner, _, hinner, hms', hclosing, (h.tolerant inner).exchange hkeepsAt hread⟩

theorem Describes.read_permute (h : Describes role r) {members members' : List (Tree × Tree)}
    {fault : Option Fault} (hperm : members.Perm members') {x : α}
    (hread : r.read depth (.object members fault) = .ok x) :
    r.read depth (.object members' fault) = .ok x := by
  obtain ⟨inner, ms, hinner, hms, hclosing, hread⟩ := read_object_eq_ok.1 hread
  obtain ⟨ms', hms', hperm'⟩ := List.perm_comp_forall₂ hperm.symm hms
  exact read_object_eq_ok.2
    ⟨inner, ms', hinner, hms', hclosing, (h.tolerant inner).permute hperm'.symm hread⟩

theorem Describes.read_leaveOut (h : Describes role r) {front back : List (Tree × Tree)}
    {key : Tree} {name : String} {fault : Option Fault} (hkey : key.keyText = .ok name)
    (hdefault : role.IsDefault name tree) {x : α}
    (hread : r.read depth (.object (front ++ (key, tree) :: back) fault) = .ok x) :
    r.read depth (.object (front ++ back) fault) = .ok x := by
  obtain ⟨inner, ms, hinner, hms, hclosing, hread⟩ := read_object_eq_ok.1 hread
  obtain ⟨front', m, back', hfront, ⟨hname, rfl⟩, hback, rfl⟩ := forall₂_append_cons_left.1 hms
  cases hkey.symm.trans hname
  exact read_object_eq_ok.2 ⟨inner, _, hinner, List.rel_append hfront hback, hclosing,
    (h.tolerant inner).leaveOut hdefault hread⟩

end Records

section Rewriting

theorem readList_item {item : Role} {read : Nat → Tree → Except DocumentError α}
    (h : Reader item α read) {front back : List Tree} {a b : Tree} {fault : Option Fault}
    (hkeeps : item.Keeps a b) {as : List α}
    (hread : readList read depth (.array (front ++ a :: back) fault) = .ok as) :
    readList read depth (.array (front ++ b :: back) fault) = .ok as := by
  obtain ⟨inner, hinner, has, hclosing⟩ := readList_eq_ok.1 hread
  obtain ⟨front', x, back', hfront, hx, hback, rfl⟩ := forall₂_append_cons_left.1 has
  have has' := forall₂_append_cons_left.2 ⟨front', x, back', hfront, hkeeps h hx, hback, rfl⟩
  exact readList_eq_ok.2 ⟨inner, hinner, has', hclosing⟩

theorem Rewrite.readKind (h : Rewrite .other tree tree') {kind : DeclarationKind}
    (hread : readKind depth tree = .ok kind) : Document.readKind depth tree' = .ok kind := by
  cases h with
  | item => cases hread
  | @member _ front back key a b fault h =>
      obtain ⟨only, _, hmembers, -⟩ := readKind_object hread
      have hmem : (key, a) ∈ [(only, Tree.null)] :=
        hmembers ▸ List.mem_append_right front List.mem_cons_self
      cases List.mem_singleton.1 hmem
      cases h
  | permute hperm =>
      obtain ⟨_, _, rfl, -⟩ := readKind_object hread
      rwa [List.perm_singleton.1 hperm.symm]
  | leaveOut _ hdefault =>
      cases hdefault with
      | emptyList hmember => cases Role.mem_parts_of_member hmember

theorem Rewrite.keeps_of (h : Rewrite role tree tree')
    (record : ∀ {δ α : Type} {r : Record δ α}, Describes role r →
      ∀ {depth a}, r.read depth tree = .ok a → r.read depth tree' = .ok a)
    (list : ∀ {item : Role} {α : Type} {read : Nat → Tree → Except DocumentError α},
      role = .list item → Reader item α read →
      ∀ {depth as}, readList read depth tree = .ok as → readList read depth tree' = .ok as) :
    role.Keeps tree tree' := by
  intro α read hreader depth a hread
  cases hreader with
  | record hdescribes => exact record hdescribes hread
  | type => exact h.readType hread
  | list hitem => exact list rfl hitem hread
  | text | text? => cases h <;> cases hread
  | kind => exact h.readKind hread
  | skip => exact mapError_eq_ok.2 (h.skip (mapError_eq_ok.1 hread))

theorem Rewrite.keeps (h : Rewrite role tree tree') : role.Keeps tree tree' := by
  induction h with
  | item h ih =>
      refine (Rewrite.item h).keeps_of (fun hdescribes => hdescribes.read_item ih) ?_
      rintro item α read rfl hitem depth as
      exact readList_item hitem ih
  | member h ih =>
      exact (Rewrite.member h).keeps_of (fun hdescribes => hdescribes.read_member ih) nofun
  | permute hperm =>
      exact (Rewrite.permute hperm).keeps_of (fun hdescribes => hdescribes.read_permute hperm) nofun
  | leaveOut hkey hdefault =>
      exact (Rewrite.leaveOut hkey hdefault).keeps_of
        (fun hdescribes => hdescribes.read_leaveOut hkey hdefault) nofun

theorem Rewrites.keeps (h : Rewrites role tree tree') : role.Keeps tree tree' := by
  induction h with
  | refl => exact fun _ _ _ _ _ hread => hread
  | tail _ hstep ih => exact fun _ _ hreader _ _ hread => hstep.keeps hreader (ih hreader hread)

end Rewriting

end ActionWiring.Document
