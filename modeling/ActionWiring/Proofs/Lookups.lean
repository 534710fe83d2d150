import ActionWiring.CompilationUnit
import ActionWiring.Proofs.Outcomes

namespace ActionWiring.CompilationUnit

variable {u : CompilationUnit} {name : String} {d e : Declaration}

theorem check_eq_ok_iff {a : Unit} : u.check = .ok a ↔ u.names.Nodup := by
  rw [check, names, visible, ← u.repeatedName_eq_none_iff]
  cases u.repeatedName with
  | none => simp
  | some name => simp

theorem ownDeclarations_eq_ok_iff {ds : List Declaration} :
    u.ownDeclarations = .ok ds ↔ u.names.Nodup ∧ u.own = ds := by
  simp only [ownDeclarations, bind_eq_ok, check_eq_ok_iff, exists_const, pure, Except.pure,
    Except.ok.injEq]

theorem find?_eq_some_of_mem (distinct : u.names.Nodup) (h : d ∈ u.visible) :
    (u.visible.find? fun e => e.name == d.name) = some d := by
  rw [names] at distinct
  revert distinct h
  induction u.visible with
  | nil => exact fun _ h => nomatch h
  | cons e es ih =>
      intro distinct h
      rw [List.map_cons, List.nodup_cons] at distinct
      rcases List.mem_cons.1 h with rfl | h
      · simp
      · have hne : e.name ≠ d.name := fun he => distinct.1 (he ▸ List.mem_map_of_mem h)
        simp [hne, ih distinct.2 h]

theorem index_eq_find? (distinct : u.names.Nodup) (name : String) :
    (u.index.lookup name).bind u.at? = u.visible.find? fun d => d.name == name := by
  cases h : u.index.lookup name with
  | none =>
      rw [index_lookup_eq_none_iff, names, List.mem_map, not_exists] at h
      symm
      rw [Option.bind_none, List.find?_eq_none]
      simpa using h
  | some p =>
      obtain ⟨d, hd, rfl⟩ := at?_of_lookup h
      rw [Option.bind_some, hd, find?_eq_some_of_mem distinct (mem_visible_of_at? hd)]

theorem lookup_eq_ok_iff {found : Option Declaration} :
    u.lookup name = .ok found ↔
      u.names.Nodup ∧ (u.visible.find? fun d => d.name == name) = found := by
  simp only [lookup, bind_eq_ok, check_eq_ok_iff, exists_const, pure, Except.pure,
    Except.ok.injEq]
  exact and_congr_right fun distinct => by rw [index_eq_find? distinct]

theorem lookup_ok (distinct : u.names.Nodup) (name : String) :
    ∃ found, u.lookup name = .ok found :=
  ⟨_, lookup_eq_ok_iff.2 ⟨distinct, rfl⟩⟩

theorem distinct_of_lookup {found : Option Declaration} (h : u.lookup name = .ok found) :
    u.names.Nodup :=
  (lookup_eq_ok_iff.1 h).1

theorem lookup_name (h : u.lookup name = .ok (some d)) : d.name = name :=
  (mem_of_lookup_eq_some h).2

theorem lookup_unique (hd : u.lookup name = .ok (some d)) (he : u.lookup name = .ok (some e)) :
    d = e := by
  rw [hd] at he
  cases he
  rfl

theorem lookup_eq_some_iff (distinct : u.names.Nodup) :
    u.lookup name = .ok (some d) ↔ d ∈ u.visible ∧ d.name = name := by
  constructor
  · exact mem_of_lookup_eq_some
  · rintro ⟨hmem, rfl⟩
    exact lookup_eq_ok_iff.2 ⟨distinct, find?_eq_some_of_mem distinct hmem⟩

theorem lookup_eq_none_iff (distinct : u.names.Nodup) :
    u.lookup name = .ok none ↔ name ∉ u.names := by
  rw [lookup_eq_ok_iff, and_iff_right distinct, List.find?_eq_none, names, List.mem_map]
  simp only [beq_iff_eq, not_exists, not_and]

inductive Ancestor (u : CompilationUnit) (d : Declaration) : String → Prop
  | direct {name : String} : name ∈ d.supertypes → Ancestor u d name
  | beyond {middle name : String} {e : Declaration} : Ancestor u d middle →
      u.lookup middle = .ok (some e) → name ∈ e.supertypes → Ancestor u d name

theorem Ancestor.trans {d e : Declaration} {middle name : String} (first : u.Ancestor d middle)
    (he : u.lookup middle = .ok (some e)) (second : u.Ancestor e name) : u.Ancestor d name := by
  induction second with
  | direct h => exact .beyond first he h
  | beyond _ hl h ih => exact .beyond ih hl h

theorem Ancestor.mem_of_closed {d : Declaration} {names : List String}
    (start : ∀ name ∈ d.supertypes, name ∈ names)
    (closed : ∀ middle ∈ names, ∀ e, u.lookup middle = .ok (some e) →
      ∀ name ∈ e.supertypes, name ∈ names)
    {name : String} (h : u.Ancestor d name) : name ∈ names := by
  induction h with
  | direct h => exact start _ h
  | beyond _ hl h ih => exact closed _ ih _ hl _ h

theorem not_ancestor_of_no_supertypes {d : Declaration} (h : d.supertypes = []) {name : String} :
    ¬ u.Ancestor d name := by
  intro hanc
  induction hanc with
  | direct hmem =>
      rw [h] at hmem
      cases hmem
  | beyond _ _ _ ih => exact ih

structure SoundHierarchy (u : CompilationUnit) (d : Declaration) : Prop where
  known : ∀ name, u.Ancestor d name → ∃ e, u.lookup name = .ok (some e)
  proper : ¬ u.Ancestor d d.name

def Above (u : CompilationUnit) (d e : Declaration) : Prop :=
  ∃ name, u.Ancestor d name ∧ u.lookup name = .ok (some e)

end ActionWiring.CompilationUnit
