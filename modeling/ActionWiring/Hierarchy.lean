import ActionWiring.CompilationUnit

namespace ActionWiring

def select {ι ε α : Type} (chosen : ι → Except ε Bool) (result : ι → Except ε α) :
    List ι → Except ε (List α)
  | [] => .ok []
  | i :: is => do
      if ← chosen i then
        let r ← result i
        let rs ← select chosen result is
        return r :: rs
      else select chosen result is

structure Frame where
  owner : String
  pending : List String
  deriving DecidableEq, Repr

structure Walk where
  stack : List Frame
  seen : List String := []
  found : List Declaration := []

namespace Walk

def start (d : Declaration) : Walk where
  stack := [⟨d.name, d.supertypes⟩]

inductive Next where
  | finished (found : List Declaration)
  | failed (cause : DeclarationError)
  | step (walk : Walk)

def next (u : CompilationUnit) (root : String) (w : Walk) : Next :=
  match w.stack with
  | [] => .finished w.found
  | ⟨_, []⟩ :: frames => .step { w with stack := frames }
  | ⟨owner, name :: pending⟩ :: frames =>
      if name = root then .failed (.ownSupertype root)
      else if name ∈ w.seen then .step { w with stack := ⟨owner, pending⟩ :: frames }
      else
        match u.lookup name with
        | .error cause => .failed cause
        | .ok none => .failed (.unknownSupertype owner name)
        | .ok (some d) =>
            .step
              { stack := ⟨d.name, d.supertypes⟩ :: ⟨owner, pending⟩ :: frames
                seen := name :: w.seen
                found := w.found ++ [d] }

def unseen (u : CompilationUnit) (w : Walk) : Nat :=
  (u.names.filter fun name => decide (name ∉ w.seen)).length

def remaining (w : Walk) : Nat :=
  w.stack.foldr (fun frame n => frame.pending.length + 1 + n) 0

theorem filter_unseen_lt {names seen : List String} {name : String} (hmem : name ∈ names)
    (hseen : name ∉ seen) :
    (names.filter fun n => decide (n ∉ name :: seen)).length <
      (names.filter fun n => decide (n ∉ seen)).length := by
  have hsub : ∀ ns : List String,
      (ns.filter fun n => decide (n ∉ name :: seen)) =
        (ns.filter fun n => decide (n ∉ seen)).filter fun n => decide (n ≠ name) := by
    intro ns
    rw [List.filter_filter]
    congr 1
    funext n
    simp
  rw [hsub]
  have hin : name ∈ names.filter fun n => decide (n ∉ seen) := by simp [hmem, hseen]
  exact List.length_filter_lt_length_iff_exists.2 ⟨name, hin, by simp⟩

theorem next_decreases {u : CompilationUnit} {root : String} {w v : Walk}
    (h : next u root w = .step v) :
    v.unseen u < w.unseen u ∨ v.unseen u = w.unseen u ∧ v.remaining < w.remaining := by
  unfold next at h
  split at h
  · cases h
  · rename_i hs
    cases h
    exact .inr ⟨rfl, by simp [remaining, hs]⟩
  · rename_i owner name pending frames hs
    split at h
    · cases h
    split at h
    · cases h
      exact .inr ⟨rfl, by simp [remaining, hs]⟩
    rename_i hseen
    split at h
    · cases h
    · cases h
    · rename_i d hd
      cases h
      obtain ⟨hmem, rfl⟩ := CompilationUnit.mem_of_lookup_eq_some hd
      exact .inl (filter_unseen_lt (List.mem_map_of_mem hmem) hseen)

def run (u : CompilationUnit) (root : String) (w : Walk) :
    Except DeclarationError (List Declaration) :=
  match _h : next u root w with
  | .finished found => .ok found
  | .failed cause => .error cause
  | .step v => run u root v
termination_by (w.unseen u, w.remaining)
decreasing_by
  rcases next_decreases _h with h | ⟨he, hl⟩
  · exact Prod.Lex.left _ _ h
  · rw [he]; exact Prod.Lex.right _ hl

end Walk

namespace CompilationUnit

def transitiveSupertypes (u : CompilationUnit) (d : Declaration) :
    Except DeclarationError (List Declaration) :=
  Walk.run u d.name (Walk.start d)

end CompilationUnit

structure OwnedField where
  owner : Declaration
  field : Field

namespace OwnedField

def ofDeclarations (ds : List Declaration) : List OwnedField :=
  ds.flatMap fun d => d.fields.map fun f => ⟨d, f⟩

end OwnedField

namespace CompilationUnit

def fieldsOf (u : CompilationUnit) (d : Declaration) :
    Except DeclarationError (List OwnedField) := do
  let supertypes ← u.transitiveSupertypes d
  return OwnedField.ofDeclarations (d :: supertypes)

def gather {α : Type} (u : CompilationUnit) (d : Declaration)
    (chosen : Field → Except PlanError Bool)
    (result : Declaration → Field → Except PlanError α) :
    Except PlanError (List α) := do
  let fields ← liftDeclarations (u.fieldsOf d)
  select (fun f => chosen f.field) (fun f => result f.owner f.field) fields

def fieldsWhere (u : CompilationUnit) (d : Declaration)
    (chosen : Field → Except PlanError Bool) : Except PlanError (List OwnedField) :=
  u.gather d chosen fun owner field => .ok ⟨owner, field⟩

end CompilationUnit

end ActionWiring
