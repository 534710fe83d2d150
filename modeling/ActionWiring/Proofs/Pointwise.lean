import Mathlib.Data.List.Forall2
import ActionWiring.Proofs.Outcomes

namespace ActionWiring

section

variable {α β γ : Type} {R S : α → β → Prop} {xs : List α} {ys : List β}

theorem exists_forall₂_iff : (∃ ys, List.Forall₂ R xs ys) ↔ ∀ x ∈ xs, ∃ y, R x y := by
  induction xs with
  | nil => simp
  | cons x xs ih =>
      rw [List.forall_mem_cons, ← ih]
      constructor
      · rintro ⟨_, hall⟩
        cases hall with
        | cons hy hys => exact ⟨⟨_, hy⟩, _, hys⟩
      · rintro ⟨⟨y, hy⟩, ys, hys⟩
        exact ⟨y :: ys, .cons hy hys⟩

theorem forall₂_iff_eq_map {g : α → β} (h : ∀ x ∈ xs, ∀ y, R x y ↔ y = g x) (ys : List β) :
    List.Forall₂ R xs ys ↔ ys = xs.map g := by
  induction xs generalizing ys with
  | nil => simp
  | cons x xs ih =>
      rw [List.forall_mem_cons] at h
      rw [List.forall₂_cons_left_iff]
      simp [h.1, ih h.2]

theorem map_eq_map_of_forall₂ {f : α → γ} {g : β → γ} (h : List.Forall₂ R xs ys)
    (hR : ∀ x y, R x y → g y = f x) : ys.map g = xs.map f := by
  induction h with
  | nil => rfl
  | cons hxy _ ih => rw [List.map_cons, List.map_cons, hR _ _ hxy, ih]

theorem exists_of_mem_left (h : List.Forall₂ R xs ys) {x : α} (hx : x ∈ xs) : ∃ y ∈ ys, R x y := by
  induction h with
  | nil => cases hx
  | cons hxy _ ih =>
      rcases List.mem_cons.1 hx with rfl | hx
      · exact ⟨_, List.mem_cons_self, hxy⟩
      · obtain ⟨y, hy, hxy⟩ := ih hx
        exact ⟨y, List.mem_cons_of_mem _ hy, hxy⟩

theorem exists_of_mem_right (h : List.Forall₂ R xs ys) {y : β} (hy : y ∈ ys) :
    ∃ x ∈ xs, R x y := by
  induction h with
  | nil => cases hy
  | cons hxy _ ih =>
      rcases List.mem_cons.1 hy with rfl | hy
      · exact ⟨_, List.mem_cons_self, hxy⟩
      · obtain ⟨x, hx, hxy⟩ := ih hy
        exact ⟨x, List.mem_cons_of_mem _ hx, hxy⟩

theorem exists_getElem?_of_forall₂ (h : List.Forall₂ R xs ys) {i : Nat} {y : β}
    (hy : ys[i]? = some y) : ∃ x, xs[i]? = some x ∧ R x y := by
  induction h generalizing i with
  | nil => cases hy
  | cons hxy _ ih =>
      cases i with
      | zero =>
          cases hy
          exact ⟨_, rfl, hxy⟩
      | succ i => exact ih hy

theorem forall₂_of_mem (h : List.Forall₂ R xs ys) (hmem : ∀ x ∈ xs, ∀ {y}, R x y → S x y) :
    List.Forall₂ S xs ys := by
  induction h with
  | nil => exact .nil
  | cons hxy _ ih =>
      rw [List.forall_mem_cons] at hmem
      exact .cons (hmem.1 hxy) (ih hmem.2)

theorem forall₂_append_cons_left {front back : List α} {x : α} :
    List.Forall₂ R (front ++ x :: back) ys ↔
      ∃ front' y back', List.Forall₂ R front front' ∧ R x y ∧ List.Forall₂ R back back' ∧
        ys = front' ++ y :: back' := by
  induction front generalizing ys with
  | nil =>
      rw [List.nil_append, List.forall₂_cons_left_iff]
      simp
  | cons z front ih =>
      rw [List.cons_append, List.forall₂_cons_left_iff]
      simp only [ih, List.forall₂_cons_left_iff]
      constructor
      · rintro ⟨w, _, hw, ⟨front', y, back', hfront, hy, hback, rfl⟩, rfl⟩
        exact ⟨w :: front', y, back', ⟨w, front', hw, hfront, rfl⟩, hy, hback, rfl⟩
      · rintro ⟨_, y, back', ⟨w, front', hw, hfront, rfl⟩, hy, hback, rfl⟩
        exact ⟨w, front' ++ y :: back', hw, ⟨front', y, back', hfront, hy, hback, rfl⟩, rfl⟩

theorem mapM_eq_ok {ε : Type} {α β : Type} {f : α → Except ε β} {xs : List α} {ys : List β} :
    xs.mapM f = .ok ys ↔ List.Forall₂ (fun x y => f x = .ok y) xs ys := by
  induction xs generalizing ys with
  | nil =>
      rw [List.mapM_nil, List.forall₂_nil_left_iff]
      exact ⟨fun h => (Except.ok.inj h).symm, fun h => congrArg Except.ok h.symm⟩
  | cons x xs ih =>
      simp only [List.mapM_cons, bind_eq_ok, ih, List.forall₂_cons_left_iff]
      constructor
      · rintro ⟨y, hy, ys, hys, ⟨⟩⟩
        exact ⟨y, ys, hy, hys, rfl⟩
      · rintro ⟨y, ys, hy, hys, rfl⟩
        exact ⟨y, hy, ys, hys, rfl⟩

theorem eq_of_map_eq_map {f : α → β} {zs : List α}
    (inj : ∀ x ∈ xs, ∀ z ∈ zs, f x = f z → x = z) (h : xs.map f = zs.map f) : xs = zs := by
  induction xs generalizing zs with
  | nil => exact (List.map_eq_nil_iff.1 h.symm).symm
  | cons x xs ih =>
      cases zs with
      | nil => cases h
      | cons z zs =>
          rw [List.map_cons, List.map_cons, List.cons.injEq] at h
          have hhead : x = z := inj x List.mem_cons_self z List.mem_cons_self h.1
          have htail : xs = zs := ih (fun x hx z hz =>
            inj x (List.mem_cons_of_mem _ hx) z (List.mem_cons_of_mem _ hz)) h.2
          rw [hhead, htail]

theorem findSome?_of_forall₂ {f : α → Option β} {zs : List α}
    (h : List.Forall₂ (fun x z => f x = f z) xs zs) : xs.findSome? f = zs.findSome? f := by
  induction h with
  | nil => rfl
  | cons hxz _ ih => rw [List.findSome?_cons, List.findSome?_cons, hxz, ih]

theorem exists_findSome?_of_mem {f : α → Option β} {x : α} {b : β} (hx : x ∈ xs)
    (h : f x = some b) : ∃ first, xs.findSome? f = some first :=
  Option.isSome_iff_exists.1 (List.findSome?_isSome_iff.2 ⟨x, hx, h ▸ rfl⟩)

theorem findSome?_eq_some_iff_least {f : α → Option β} {b : β} :
    xs.findSome? f = some b ↔
      ∃ (k : Nat) (x : α), xs[k]? = some x ∧ f x = some b ∧
        ∀ j < k, ∀ y, xs[j]? = some y → f y = none := by
  induction xs with
  | nil => simp
  | cons x xs ih =>
      rw [List.findSome?_cons]
      cases hx : f x with
      | some c =>
          constructor
          · rintro ⟨⟩
            exact ⟨0, x, rfl, hx, fun j hj => absurd hj (Nat.not_lt_zero j)⟩
          · rintro ⟨k, y, hy, hb, before⟩
            cases k with
            | zero =>
                cases hy
                exact hx.symm.trans hb
            | succ k =>
                have hnone : f x = none := before 0 (Nat.succ_pos k) x rfl
                rw [hx] at hnone
                cases hnone
      | none =>
          refine ih.trans ⟨?_, ?_⟩
          · rintro ⟨k, y, hy, hb, before⟩
            refine ⟨k + 1, y, hy, hb, fun j hj z hz => ?_⟩
            cases j with
            | zero =>
                cases hz
                exact hx
            | succ j => exact before j (Nat.lt_of_succ_lt_succ hj) z hz
          · rintro ⟨k, y, hy, hb, before⟩
            cases k with
            | zero =>
                cases hy
                rw [hx] at hb
                cases hb
            | succ k =>
                exact ⟨k, y, hy, hb, fun j hj z hz => before (j + 1) (Nat.succ_lt_succ hj) z hz⟩

end

end ActionWiring
