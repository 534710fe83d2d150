import ActionWiring.Declaration

namespace ActionWiring

section

variable {ε ε' α β : Type}

theorem bind_eq_ok {x : Except ε α} {f : α → Except ε β} {b : β} :
    (x >>= f) = .ok b ↔ ∃ a, x = .ok a ∧ f a = .ok b := by
  cases x with
  | error e => simp [bind, Except.bind]
  | ok a => simp [bind, Except.bind]

theorem bind_pure_eq_ok {x : Except ε α} {f : α → β} {b : β} :
    (x >>= fun a => pure (f a)) = .ok b ↔ ∃ a, x = .ok a ∧ f a = b := by
  rw [bind_eq_ok]
  simp only [pure, Except.pure, Except.ok.injEq]

theorem bind_unit_eq_ok {x : Except ε Unit} {y : Except ε β} {b : β} :
    (x >>= fun _ => y) = .ok b ↔ x = .ok () ∧ y = .ok b := by
  cases x with
  | error e => simp [bind, Except.bind]
  | ok a => simp [bind, Except.bind]

theorem bind_pure_ok_iff {x : Except ε α} {f : α → β} :
    (∃ b, (x >>= fun a => pure (f a)) = .ok b) ↔ ∃ a, x = .ok a := by
  simp only [bind_pure_eq_ok]
  constructor
  · rintro ⟨_, a, h, -⟩
    exact ⟨a, h⟩
  · rintro ⟨a, h⟩
    exact ⟨f a, a, h, rfl⟩

theorem bind_eq_bind_pure {γ : Type} {x : Except ε α} {f : α → β} {g : α → Except ε γ}
    {g' : β → Except ε γ} (h : ∀ a, g a = g' (f a)) :
    x >>= g = (x >>= fun a => pure (f a)) >>= g' := by
  rw [bind_assoc]
  exact bind_congr h

theorem map_eq_ok {x : Except ε α} {f : α → β} {b : β} :
    x.map f = .ok b ↔ ∃ a, x = .ok a ∧ f a = b := by
  cases x with
  | error e => simp [Except.map]
  | ok a => simp [Except.map]

@[simp] theorem mapError_ok (a : α) (f : ε → ε') :
    Except.mapError f (.ok a : Except ε α) = .ok a := rfl

@[simp] theorem mapError_error (e : ε) (f : ε → ε') :
    Except.mapError f (.error e : Except ε α) = .error (f e) := rfl

theorem mapError_eq_ok {x : Except ε α} {f : ε → ε'} {a : α} :
    x.mapError f = .ok a ↔ x = .ok a := by
  cases x with
  | error e => simp
  | ok b => simp

def failure? : Except ε α → Option ε
  | .ok _ => none
  | .error e => some e

theorem failure?_eq_none_iff {x : Except ε α} : failure? x = none ↔ ∃ a, x = .ok a := by
  cases x with
  | error e => simp [failure?]
  | ok a => simp [failure?]

theorem failure?_eq_some_iff {x : Except ε α} {e : ε} : failure? x = some e ↔ x = .error e := by
  cases x with
  | error e' => simp [failure?]
  | ok a => simp [failure?]

theorem failure?_bind_pure (x : Except ε α) (f : α → β) :
    failure? (x >>= fun a => pure (f a)) = failure? x := by
  cases x with
  | error e => rfl
  | ok a => rfl

end

theorem liftDeclarations_eq_ok {α : Type} {x : Except DeclarationError α} {a : α} :
    liftDeclarations x = .ok a ↔ x = .ok a :=
  mapError_eq_ok

theorem liftTypes_eq_ok {α : Type} {x : Except Misalignment α} {a : α} :
    liftTypes x = .ok a ↔ x = .ok a :=
  mapError_eq_ok

end ActionWiring
