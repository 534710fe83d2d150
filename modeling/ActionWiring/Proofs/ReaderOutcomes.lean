import ActionWiring.Proofs.DraftSlots
import ActionWiring.Proofs.Pointwise

namespace ActionWiring.Document

open Json

variable {δ α : Type} {r : Record δ α} {depth : Nat} {tree : Tree}

theorem readText_eq_ok {text : String} : readText tree = .ok text ↔ tree.keyText = .ok text := by
  cases tree with
  | string raw => exact mapError_eq_ok
  | _ => exact ⟨nofun, nofun⟩

theorem readKind_word {kind : DeclarationKind} (hword : tree.keyText = .ok kind.word)
    {found : DeclarationKind} (h : readKind depth tree = .ok found) :
    declarationKindOf kind.word = .ok found := by
  cases tree with
  | string raw =>
      obtain ⟨word, hread, hkind⟩ := bind_eq_ok.1 h
      cases hword.symm.trans (mapError_eq_ok.1 hread)
      exact mapError_eq_ok.1 hkind
  | _ => cases hword

theorem readKind_object {members : List (Tree × Tree)} {fault : Option Fault}
    {kind : DeclarationKind} (h : readKind depth (.object members fault) = .ok kind) :
    ∃ key word, members = [(key, .null)] ∧ closing fault = .ok () ∧ key.keyText = .ok word ∧
      declarationKindOf word = .ok kind := by
  match members with
  | [] =>
      obtain ⟨_, -, h⟩ := bind_eq_ok.1 h
      obtain ⟨_, -, ⟨⟩⟩ := bind_eq_ok.1 h
  | (key, tree) :: more =>
      obtain ⟨_, -, h⟩ := bind_eq_ok.1 h
      obtain ⟨word, hword, h⟩ := bind_eq_ok.1 h
      obtain ⟨found, hfound, h⟩ := bind_eq_ok.1 h
      have hnull : tree = .null := by
        cases tree with
        | null => rfl
        | _ => cases h
      subst hnull
      cases more with
      | nil =>
          obtain ⟨_, hclosing, ⟨⟩⟩ := bind_eq_ok.1 h
          exact ⟨key, word, rfl, mapError_eq_ok.1 hclosing, mapError_eq_ok.1 hword,
            mapError_eq_ok.1 hfound⟩
      | cons m more => cases h

theorem readList_eq_ok {read : Nat → Tree → Except DocumentError α} {items : List Tree}
    {fault : Option Fault} {as : List α} :
    readList read depth (.array items fault) = .ok as ↔
      ∃ inner, enter depth = .ok inner ∧
        List.Forall₂ (fun item a => read inner item = .ok a) items as ∧ closing fault = .ok () := by
  simp only [readList, liftText, bind_eq_ok, mapError_eq_ok, mapM_eq_ok]
  constructor
  · rintro ⟨inner, hinner, _, has, _, hclosing, ⟨⟩⟩
    exact ⟨inner, hinner, has, hclosing⟩
  · rintro ⟨inner, hinner, has, hclosing⟩
    exact ⟨inner, hinner, as, has, (), hclosing, rfl⟩

theorem readList_nil {read : Nat → Tree → Except DocumentError α} {as : List α}
    (h : readList read depth (.array [] none) = .ok as) : as = [] := by
  obtain ⟨_, -, has, -⟩ := readList_eq_ok.1 h
  exact List.forall₂_nil_left_iff.1 has

def Named (m : Tree × Tree) (m' : String × Tree) : Prop := m.1.keyText = .ok m'.1 ∧ m.2 = m'.2

theorem putMembers_eq_ok {members : List (Tree × Tree)} {d final : δ} :
    r.putMembers depth d members = .ok final ↔
      ∃ ms, List.Forall₂ Named members ms ∧
        ms.foldlM (fun d m => r.put depth d m.1 m.2) d = .ok final := by
  induction members generalizing d with
  | nil =>
      simp only [Record.putMembers, List.forall₂_nil_left_iff, exists_eq_left, List.foldlM_nil,
        pure, Except.pure]
  | cons m members ih =>
      obtain ⟨key, tree⟩ := m
      simp only [Record.putMembers, liftText, bind_eq_ok, mapError_eq_ok, ih,
        List.forall₂_cons_left_iff]
      constructor
      · rintro ⟨name, hname, d', hput, ms, hms, hfold⟩
        exact ⟨(name, tree) :: ms, ⟨(name, tree), ms, ⟨hname, rfl⟩, hms, rfl⟩,
          foldlM_cons_ok.2 ⟨d', hput, hfold⟩⟩
      · rintro ⟨_, ⟨⟨name, _⟩, ms, ⟨hname, rfl⟩, hms, rfl⟩, hfold⟩
        obtain ⟨d', hput, hfold⟩ := foldlM_cons_ok.1 hfold
        exact ⟨name, hname, d', hput, ms, hms, hfold⟩

theorem read_object_eq_ok {members : List (Tree × Tree)} {fault : Option Fault} {a : α} :
    r.read depth (.object members fault) = .ok a ↔
      ∃ inner ms, enter depth = .ok inner ∧
        List.Forall₂ Named members ms ∧
        closing fault = .ok () ∧
        (ms.foldlM (fun d m => r.put inner d m.1 m.2) r.blank >>= r.finish) = .ok a := by
  simp only [Record.read, liftText, bind_eq_ok, mapError_eq_ok, putMembers_eq_ok]
  constructor
  · rintro ⟨inner, hinner, d, ⟨ms, hms, hfold⟩, _, hclosing, hfinish⟩
    exact ⟨inner, ms, hinner, hms, hclosing, d, hfold, hfinish⟩
  · rintro ⟨inner, ms, hinner, hms, hclosing, d, hfold, hfinish⟩
    exact ⟨inner, hinner, d, ⟨ms, hms, hfold⟩, (), hclosing, hfinish⟩

end ActionWiring.Document
