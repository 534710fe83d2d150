import ActionWiring.Proofs.OutermostTypes
import ActionWiring.Proofs.ReaderOutcomes
import ActionWiring.Proofs.SpelledTrees

namespace ActionWiring.Document

open Json

variable {role : Role} {tree tree' : Tree} {depth : Nat}

theorem skipAll_eq_ok {trees : List Tree} :
    Tree.skipAll trees = .ok () ↔ ∀ tree ∈ trees, tree.skip = .ok () := by
  induction trees with
  | nil => simp [Tree.skipAll]
  | cons tree trees ih => rw [Tree.skipAll, bind_unit_eq_ok, ih, List.forall_mem_cons]

theorem skipMembers_eq_ok {members : List (Tree × Tree)} :
    Tree.skipMembers members = .ok () ↔
      ∀ m ∈ members, m.1.skipKey = .ok () ∧ m.2.skip = .ok () := by
  induction members with
  | nil => simp [Tree.skipMembers]
  | cons m members ih =>
      rw [Tree.skipMembers, bind_unit_eq_ok, bind_unit_eq_ok, ih, List.forall_mem_cons, and_assoc]

theorem skip_array_eq_ok {items : List Tree} {fault : Option Fault} :
    (Tree.array items fault).skip = .ok () ↔
      (∀ tree ∈ items, tree.skip = .ok ()) ∧ closing fault = .ok () := by
  rw [Tree.skip, bind_unit_eq_ok, skipAll_eq_ok]

theorem skip_object_eq_ok {members : List (Tree × Tree)} {fault : Option Fault} :
    (Tree.object members fault).skip = .ok () ↔
      (∀ m ∈ members, m.1.skipKey = .ok () ∧ m.2.skip = .ok ()) ∧ closing fault = .ok () := by
  rw [Tree.skip, bind_unit_eq_ok, skipMembers_eq_ok]

theorem forall_mem_around {α : Type} {p : α → Prop} {front back : List α} {a : α} :
    (∀ x ∈ front ++ a :: back, p x) ↔ (∀ x ∈ front, p x) ∧ p a ∧ ∀ x ∈ back, p x := by
  rw [List.forall_mem_append, List.forall_mem_cons]

theorem Rewrite.skip (h : Rewrite role tree tree') (hskip : tree.skip = .ok ()) :
    tree'.skip = .ok () := by
  induction h with
  | item _ ih =>
      obtain ⟨hitems, hclosing⟩ := skip_array_eq_ok.1 hskip
      obtain ⟨hfront, ha, hback⟩ := forall_mem_around.1 hitems
      exact skip_array_eq_ok.2 ⟨forall_mem_around.2 ⟨hfront, ih ha, hback⟩, hclosing⟩
  | member _ ih =>
      obtain ⟨hmembers, hclosing⟩ := skip_object_eq_ok.1 hskip
      obtain ⟨hfront, ⟨hkey, ha⟩, hback⟩ := forall_mem_around.1 hmembers
      exact skip_object_eq_ok.2 ⟨forall_mem_around.2 ⟨hfront, ⟨hkey, ih ha⟩, hback⟩, hclosing⟩
  | permute hperm =>
      obtain ⟨hmembers, hclosing⟩ := skip_object_eq_ok.1 hskip
      exact skip_object_eq_ok.2 ⟨fun m hm => hmembers m (hperm.mem_iff.2 hm), hclosing⟩
  | leaveOut _ _ =>
      obtain ⟨hmembers, hclosing⟩ := skip_object_eq_ok.1 hskip
      obtain ⟨hfront, -, hback⟩ := forall_mem_around.1 hmembers
      exact skip_object_eq_ok.2 ⟨List.forall_mem_append.2 ⟨hfront, hback⟩, hclosing⟩

theorem closing_eq_ok {fault : Option Fault} : closing fault = .ok () ↔ fault = none := by
  cases fault <;> simp [closing]

def contents : Tree → List Tree
  | .array items _ => items
  | .object members _ => members.map Prod.snd
  | _ => []

theorem sizeOf_lt_of_mem_contents {part : Tree} (h : part ∈ contents tree) :
    sizeOf part < sizeOf tree := by
  cases tree with
  | array items fault =>
      have hlt : sizeOf part < sizeOf items := List.sizeOf_lt_of_mem h
      rw [Tree.array.sizeOf_spec]
      omega
  | object members fault =>
      obtain ⟨⟨key, part⟩, hmem, rfl⟩ := List.mem_map.1 h
      have hlt := List.sizeOf_lt_of_mem hmem
      rw [Prod.mk.sizeOf_spec] at hlt
      rw [Tree.object.sizeOf_spec]
      dsimp only
      omega
  | _ => cases h

theorem induction_contents {motive : Tree → Prop}
    (step : ∀ tree, (∀ part ∈ contents tree, motive part) → motive tree) (tree : Tree) :
    motive tree :=
  step tree fun part _ => induction_contents step part
termination_by sizeOf tree
decreasing_by exact sizeOf_lt_of_mem_contents ‹_›

theorem fault_of_chars {fault : Option Fault} {done cs : List Char} {pieces : List Piece}
    (h : RawString.chars fault done pieces = .ok cs) : fault = none := by
  fun_induction RawString.chars fault done pieces with
  | case1 done => exact closing_eq_ok.1 (bind_unit_eq_ok.1 h).1
  | case2 done c ps ih => exact ih h
  | _ => first | cases h | rename_i ih; exact ih h

theorem fault_of_text {raw : RawString} {text : String} (h : raw.text = .ok text) :
    raw.fault = none := by
  obtain ⟨cs, hcs, -⟩ := bind_pure_eq_ok.1 h
  exact fault_of_chars hcs

theorem skipKey_of_keyText {key : Tree} {name : String} (h : key.keyText = .ok name) :
    key.skipKey = .ok () := by
  cases key with
  | string raw => exact closing_eq_ok.2 (fault_of_text h)
  | _ => cases h

theorem skip_of_value {v : Value} (h : tree.value depth = .ok v) : tree.skip = .ok () := by
  induction tree using induction_contents generalizing depth v with
  | step tree ih =>
      match tree with
      | .null | .bool _ | .number _ => rfl
      | .absent | .broken _ | .brokenNumber _ => cases h
      | .string raw =>
          obtain ⟨text, htext, -⟩ := bind_pure_eq_ok.1 h
          exact closing_eq_ok.2 (fault_of_text htext)
      | .array items fault =>
          obtain ⟨inner, vs, -, hvs, hclosing, -⟩ := value_array_eq_ok.1 h
          refine skip_array_eq_ok.2 ⟨fun item hitem => ?_, hclosing⟩
          obtain ⟨v, -, hv⟩ := exists_of_mem_left hvs hitem
          exact ih item hitem hv
      | .object members fault =>
          obtain ⟨inner, ms, -, hms, hclosing, -⟩ := value_object_eq_ok.1 h
          refine skip_object_eq_ok.2 ⟨fun m hm => ?_, hclosing⟩
          obtain ⟨m', -, hm'⟩ := exists_of_mem_left hms hm
          obtain ⟨hkey, hv⟩ := memberValue_eq_ok.1 hm'
          exact ⟨skipKey_of_keyText hkey, ih m.2 (List.mem_map_of_mem hm) hv⟩

theorem not_isBroken_of_skipKey {key : Tree} (h : key.skipKey = .ok ()) :
    key.keyToken.isBroken ≠ true := by
  match key with
  | .string ⟨pieces, fault⟩ =>
      obtain rfl := closing_eq_ok.1 h
      nofun
  | .absent | .broken _ | .brokenNumber _ | .null | .bool _ | .number _ | .array _ _
  | .object _ _ => cases h

theorem not_isBroken_of_skip (h : tree.skip = .ok ()) : ¬ tree.IsBroken := by
  induction tree using induction_contents with
  | step tree ih =>
      rintro ⟨token, htoken, hbroken⟩
      have hcomma : token ≠ .comma := by
        rintro rfl
        cases hbroken
      match tree with
      | .absent | .broken _ | .brokenNumber _ => cases h
      | .null | .bool _ | .number _ =>
          cases List.mem_singleton.1 htoken
          cases hbroken
      | .string raw =>
          cases List.mem_singleton.1 htoken
          rw [Token.isBroken, closing_eq_ok.1 h] at hbroken
          cases hbroken
      | .array items fault =>
          obtain ⟨hitems, hclosing⟩ := skip_array_eq_ok.1 h
          obtain rfl := closing_eq_ok.1 hclosing
          rw [Tree.tokens, List.mem_cons, List.mem_append, List.mem_singleton, mem_commaed hcomma,
            Tree.itemTokens_eq_map] at htoken
          simp only [List.mem_map, exists_exists_and_eq_and] at htoken
          rcases htoken with rfl | ⟨item, hitem, htoken⟩ | rfl
          · cases hbroken
          · exact ih item hitem (hitems item hitem) ⟨token, htoken, hbroken⟩
          · cases hbroken
      | .object members fault =>
          obtain ⟨hmembers, hclosing⟩ := skip_object_eq_ok.1 h
          obtain rfl := closing_eq_ok.1 hclosing
          rw [Tree.tokens, List.mem_cons, List.mem_append, List.mem_singleton, mem_commaed hcomma,
            Tree.memberTokens_eq_map] at htoken
          simp only [List.mem_map, exists_exists_and_eq_and] at htoken
          rcases htoken with rfl | ⟨m, hm, htoken⟩ | rfl
          · cases hbroken
          · obtain ⟨hkey, hskip⟩ := hmembers m hm
            rcases List.mem_cons.1 htoken with rfl | htoken
            · exact not_isBroken_of_skipKey hkey hbroken
            · rcases List.mem_cons.1 htoken with rfl | htoken
              · cases hbroken
              · exact ih m.2 (List.mem_map_of_mem hm) hskip ⟨token, htoken, hbroken⟩
          · cases hbroken

section Checking

variable {δ α : Type} {r : Record δ α} {read : Nat → Tree → Except DocumentError α}

def Checks (read : Nat → Tree → Except DocumentError α) : Prop :=
  ∀ ⦃depth : Nat⦄ ⦃tree : Tree⦄ ⦃a : α⦄, read depth tree = .ok a → tree.skip = .ok ()

theorem skip_of_keyText {text : String} (h : tree.keyText = .ok text) : tree.skip = .ok () := by
  cases tree with
  | string raw => exact closing_eq_ok.2 (fault_of_text h)
  | _ => cases h

theorem checks_text : Checks fun _ => readText :=
  fun _ _ _ h => skip_of_keyText (readText_eq_ok.1 h)

theorem checks_text? : Checks fun _ => readText? := by
  intro _ tree text? h
  cases tree with
  | null => rfl
  | string raw =>
      have hmap : (readText (.string raw)).map some = .ok text? := h
      obtain ⟨text, htext, -⟩ := map_eq_ok.1 hmap
      exact skip_of_keyText (readText_eq_ok.1 htext)
  | _ => cases h

theorem checks_kind : Checks readKind := by
  intro depth tree kind h
  cases tree with
  | string raw =>
      obtain ⟨word, hword, -⟩ := bind_eq_ok.1 h
      exact skip_of_keyText (mapError_eq_ok.1 hword)
  | object members fault =>
      obtain ⟨key, word, rfl, hclosing, hkey, -⟩ := readKind_object h
      exact skip_object_eq_ok.2
        ⟨List.forall_mem_singleton.2 ⟨skipKey_of_keyText hkey, rfl⟩, hclosing⟩
  | _ => cases h

theorem checks_type : Checks readType := by
  intro depth tree type h
  obtain ⟨v, hv, -⟩ := readType_eq_ok.1 h
  exact skip_of_value hv

theorem Checks.list (h : Checks read) : Checks (readList read) := by
  intro depth tree as hread
  cases tree with
  | array items fault =>
      obtain ⟨inner, -, has, hclosing⟩ := readList_eq_ok.1 hread
      refine skip_array_eq_ok.2 ⟨fun item hitem => ?_, hclosing⟩
      obtain ⟨a, -, ha⟩ := exists_of_mem_left has hitem
      exact h ha
  | _ => cases hread

theorem skip_of_foldlM
    (hput : ∀ ⦃d name tree d'⦄, r.put depth d name tree = .ok d' → tree.skip = .ok ())
    {ms : List (String × Tree)} {d final : δ}
    (h : ms.foldlM (fun d m => r.put depth d m.1 m.2) d = .ok final) :
    ∀ m ∈ ms, m.2.skip = .ok () := by
  induction ms generalizing d with
  | nil => exact List.forall_mem_nil _
  | cons m ms ih =>
      obtain ⟨d', hm, hms⟩ := foldlM_cons_ok.1 h
      exact List.forall_mem_cons.2 ⟨hput hm, ih hms⟩

theorem skip_of_putElements
    (hput : ∀ ⦃d name tree d'⦄, r.put depth d name tree = .ok d' → tree.skip = .ok ())
    {names : List String} {trees : List Tree} {d final : δ}
    (h : r.putElements depth d names trees = .ok final) : ∀ tree ∈ trees, tree.skip = .ok () := by
  induction trees generalizing d names with
  | nil => exact List.forall_mem_nil _
  | cons tree trees ih =>
      cases names with
      | nil => cases h
      | cons name names =>
          obtain ⟨d', htree, hrest⟩ := bind_eq_ok.1 h
          exact List.forall_mem_cons.2 ⟨hput htree, ih hrest⟩

theorem Checks.record
    (hput : ∀ ⦃depth d name tree d'⦄, r.put depth d name tree = .ok d' → tree.skip = .ok ()) :
    Checks r.read := by
  intro depth tree a hread
  cases tree with
  | object members fault =>
      obtain ⟨inner, ms, -, hms, hclosing, hread⟩ := read_object_eq_ok.1 hread
      obtain ⟨final, hfold, -⟩ := bind_eq_ok.1 hread
      have hskip := skip_of_foldlM (fun _ _ _ _ h => hput h) hfold
      refine skip_object_eq_ok.2 ⟨fun m hm => ?_, hclosing⟩
      obtain ⟨m', hm', hkey, heq⟩ := exists_of_mem_left hms hm
      exact ⟨skipKey_of_keyText hkey, heq ▸ hskip m' hm'⟩
  | array items fault =>
      simp only [Record.read, liftText, bind_eq_ok, mapError_eq_ok] at hread
      obtain ⟨inner, -, d, helements, ⟨⟩, hclosing, -⟩ := hread
      exact skip_array_eq_ok.2 ⟨skip_of_putElements (fun _ _ _ _ h => hput h) helements, hclosing⟩
  | _ => cases hread

def Slot.Checks (s : Slot δ Tree) : Prop :=
  ∀ ⦃tree : Tree⦄ ⦃f : δ → δ⦄, s.store tree = some f → tree.skip = .ok ()

theorem Slot.Checks.of_reader {name : String} {get : δ → Option α} {set : δ → Option α → δ}
    (depth : Nat) (h : Document.Checks read) : (Slot.ofField name get set (read depth)).Checks := by
  intro tree f hf
  obtain ⟨a, ha, -⟩ := Option.map_eq_some_iff.1 hf
  cases hread : read depth tree with
  | error e =>
      rw [hread] at ha
      cases ha
  | ok a => exact h hread

theorem skip_of_put {put : δ → String → Tree → Except DocumentError δ} {slots : List (Slot δ Tree)}
    (hslots : Slotted put slots)
    (ignored : ∀ name, (∀ s ∈ slots, s.name ≠ name) → ∀ d tree, put d name tree = ignore d tree)
    (checks : ∀ s ∈ slots, s.Checks) {d d' : δ} {name : String} (h : put d name tree = .ok d') :
    tree.skip = .ok () := by
  by_cases hother : ∀ s ∈ slots, s.name ≠ name
  · rw [ignored name hother] at h
    exact (ignore_eq_ok.1 h).1
  · simp only [not_forall, not_not, exists_prop] at hother
    obtain ⟨s, hs, rfl⟩ := hother
    obtain ⟨-, f, hf, -⟩ := ((hslots.fits s hs).known d tree d').1 h
    exact checks s hs hf

theorem checks_constructor : Checks constructorRecord.read :=
  .record fun depth _ _ _ _ => skip_of_put (slotted_constructor depth) (ignored_constructor depth)
    (List.forall_mem_singleton.2 (.of_reader depth checks_text))

theorem checks_field : Checks fieldRecord.read := by
  refine .record fun depth _ _ _ _ => skip_of_put (slotted_field depth) (ignored_field depth) ?_
  simp only [fieldSlots, List.mem_cons, List.not_mem_nil, or_false, forall_eq_or_imp, forall_eq]
  exact ⟨.of_reader depth checks_text, .of_reader depth checks_type⟩

theorem checks_declaration : Checks declarationRecord.read := by
  refine .record fun depth _ _ _ _ =>
    skip_of_put (slotted_declaration depth) (ignored_declaration depth) ?_
  simp only [declarationSlots, List.mem_cons, List.not_mem_nil, or_false, forall_eq_or_imp,
    forall_eq]
  exact ⟨.of_reader depth checks_text, .of_reader depth checks_text?, .of_reader depth checks_kind,
    .of_reader depth checks_constructor.list, .of_reader depth checks_field.list,
    .of_reader depth checks_text.list⟩

theorem checks_unit : Checks unitRecord.read := by
  refine .record fun depth _ _ _ _ => skip_of_put (slotted_unit depth) (ignored_unit depth) ?_
  simp only [unitSlots, List.mem_cons, List.not_mem_nil, or_false, forall_eq_or_imp, forall_eq]
  exact ⟨.of_reader depth checks_declaration.list, .of_reader depth checks_declaration.list⟩

end Checking

end ActionWiring.Document
