import ActionWiring.Declaration

namespace ActionWiring

inductive Origin where
  | own
  | library
  deriving DecidableEq, Repr

structure Position where
  origin : Origin
  place : Nat
  deriving DecidableEq, Repr

abbrev NameIndex := List (String × Position)

def declarationsOf (own library : List Declaration) : Origin → List Declaration
  | .own => own
  | .library => library

namespace NameIndex

-- An entry in front hides those behind it, so a name that is there already is left alone.
def register (index : NameIndex) (name : String) (position : Position) : NameIndex :=
  if (index.lookup name).isSome then index else (name, position) :: index

theorem lookup_register (index : NameIndex) (name asked : String) (position : Position) :
    (index.register name position).lookup asked =
      (index.lookup asked).or (if asked = name then some position else none) := by
  unfold register
  by_cases hasked : asked = name
  · subst hasked
    cases h : index.lookup asked with
    | some found => simp [h]
    | none => simp
  · have hfront : (asked == name) = false := beq_false_of_ne hasked
    rw [if_neg hasked, Option.or_none]
    split
    · rfl
    · simp [List.lookup_cons, hfront]

structure Leads (index : NameIndex) (held : Origin → List Declaration) : Prop where
  located : ∀ {name p}, index.lookup name = some p →
    ∃ d, (held p.origin)[p.place]? = some d ∧ d.name = name
  first : ∀ {name p}, index.lookup name = some p →
    ∀ d ∈ (held p.origin).take p.place, d.name ≠ name
  complete : ∀ {origin d}, d ∈ held origin → ∃ p, index.lookup d.name = some p

variable {index : NameIndex} {held held' : Origin → List Declaration}

theorem leads_nil : Leads [] (declarationsOf [] []) where
  located h := nomatch h
  first h := nomatch h
  complete {origin _} h :=
    match origin with
    | .own => nomatch h
    | .library => nomatch h

section Registration

variable {origin : Origin} {d : Declaration}

theorem Leads.not_mem_held (h : index.Leads held) {name : String} (hnone : index.lookup name = none)
    {o : Origin} {e : Declaration} (he : e ∈ held o) : e.name ≠ name := by
  rintro rfl
  obtain ⟨p, hp⟩ := h.complete he
  rw [hnone] at hp
  cases hp

theorem Leads.place_lt (h : index.Leads held) {name : String} {p : Position}
    (hp : index.lookup name = some p) : p.place < (held p.origin).length := by
  obtain ⟨d, hd, -⟩ := h.located hp
  exact (List.getElem?_eq_some_iff.1 hd).1

theorem lookup_register_eq_some_iff {name asked : String} {p q : Position} :
    (index.register name q).lookup asked = some p ↔
      index.lookup asked = some p ∨ index.lookup asked = none ∧ asked = name ∧ q = p := by
  rw [lookup_register, Option.or_eq_some_iff, Option.ite_none_right_eq_some, Option.some.injEq]

theorem Leads.register (h : index.Leads held) (same : held' origin = held origin ++ [d])
    (rest : ∀ o, o ≠ origin → held' o = held o) :
    (index.register d.name ⟨origin, (held origin).length⟩).Leads held' := by
  have hgrows (o : Origin) : ∃ added, held' o = held o ++ added := by
    by_cases ho : o = origin
    · exact ⟨[d], ho ▸ same⟩
    · exact ⟨[], by rw [rest o ho, List.append_nil]⟩
  refine ⟨?located, ?first, ?complete⟩
  case located =>
    intro name p hp
    rcases lookup_register_eq_some_iff.1 hp with hp | ⟨-, rfl, rfl⟩
    · obtain ⟨e, he, hname⟩ := h.located hp
      obtain ⟨added, hadded⟩ := hgrows p.origin
      exact ⟨e, by rw [hadded, List.getElem?_append_left (h.place_lt hp), he], hname⟩
    · exact ⟨d, by simp [same], rfl⟩
  case first =>
    intro name p hp e he
    rcases lookup_register_eq_some_iff.1 hp with hp | ⟨hnone, rfl, rfl⟩
    · obtain ⟨added, hadded⟩ := hgrows p.origin
      rw [hadded, List.take_append_of_le_length (Nat.le_of_lt (h.place_lt hp))] at he
      exact h.first hp e he
    · rw [same, List.take_left] at he
      exact h.not_mem_held hnone he
  case complete =>
    intro o e he
    have hmem : e ∈ held o ∨ e = d := by
      by_cases ho : o = origin
      · subst ho
        rw [same, List.mem_append, List.mem_singleton] at he
        exact he
      · rw [rest o ho] at he
        exact .inl he
    rw [lookup_register]
    rcases hmem with hmem | rfl
    · obtain ⟨p, hp⟩ := h.complete hmem
      exact ⟨p, by rw [hp]; rfl⟩
    · cases index.lookup e.name with
      | some p => exact ⟨p, rfl⟩
      | none => exact ⟨_, by rw [if_pos rfl]; rfl⟩

end Registration

end NameIndex

structure CompilationUnit where
  own : List Declaration := []
  library : List Declaration := []
  index : NameIndex := []
  repeatedName : Option String := none
  index_leads : index.Leads (declarationsOf own library) := by exact NameIndex.leads_nil
  repeatedName_eq_none_iff :
    repeatedName = none ↔ ((own ++ library).map Declaration.name).Nodup := by simp

namespace CompilationUnit

def empty : CompilationUnit := {}

def visible (u : CompilationUnit) : List Declaration := u.own ++ u.library

def names (u : CompilationUnit) : List String := u.visible.map Declaration.name

def held (u : CompilationUnit) : Origin → List Declaration := declarationsOf u.own u.library

def at? (u : CompilationUnit) (p : Position) : Option Declaration := (u.held p.origin)[p.place]?

theorem mem_visible_iff {u : CompilationUnit} {d : Declaration} :
    d ∈ u.visible ↔ ∃ origin, d ∈ u.held origin := by
  rw [visible, List.mem_append]
  constructor
  · rintro (h | h)
    · exact ⟨.own, h⟩
    · exact ⟨.library, h⟩
  · rintro ⟨origin, h⟩
    cases origin with
    | own => exact .inl h
    | library => exact .inr h

theorem at?_of_lookup {u : CompilationUnit} {name : String} {p : Position}
    (h : u.index.lookup name = some p) : ∃ d, u.at? p = some d ∧ d.name = name :=
  u.index_leads.located h

theorem mem_visible_of_at? {u : CompilationUnit} {p : Position} {d : Declaration}
    (h : u.at? p = some d) : d ∈ u.visible :=
  mem_visible_iff.2 ⟨p.origin, List.mem_of_getElem? h⟩

theorem index_lookup_eq_none_iff {u : CompilationUnit} {name : String} :
    u.index.lookup name = none ↔ name ∉ u.names := by
  constructor
  · intro hnone hname
    obtain ⟨d, hd, hdname⟩ := List.mem_map.1 hname
    obtain ⟨origin, hmem⟩ := mem_visible_iff.1 hd
    exact u.index_leads.not_mem_held hnone hmem hdname
  · intro hname
    cases h : u.index.lookup name with
    | none => rfl
    | some p =>
        obtain ⟨d, hd, hdname⟩ := at?_of_lookup h
        exact absurd (List.mem_map.2 ⟨d, mem_visible_of_at? hd, hdname⟩) hname

def repeatedAfter (u : CompilationUnit) (name : String) : Option String :=
  match u.repeatedName with
  | some first => some first
  | none => if (u.index.lookup name).isSome then some name else none

theorem repeatedAfter_eq_none_iff (u : CompilationUnit) (name : String) :
    u.repeatedAfter name = none ↔ u.names.Nodup ∧ name ∉ u.names := by
  have hdistinct : u.repeatedName = none ↔ u.names.Nodup := u.repeatedName_eq_none_iff
  rw [← index_lookup_eq_none_iff, ← hdistinct, repeatedAfter]
  cases u.repeatedName with
  | some first => simp
  | none =>
      cases u.index.lookup name with
      | none => simp
      | some p => simp

theorem nodup_insert_iff {names rest : List String} {name : String} :
    (names ++ name :: rest).Nodup ↔ (names ++ rest).Nodup ∧ name ∉ names ++ rest := by
  rw [(List.perm_middle : (names ++ name :: rest).Perm (name :: (names ++ rest))).nodup_iff,
    List.nodup_cons, and_comm]

def add (u : CompilationUnit) (origin : Origin) (d : Declaration) : CompilationUnit :=
  match origin with
  | .own =>
      { own := u.own ++ [d]
        library := u.library
        index := u.index.register d.name ⟨.own, u.own.length⟩
        repeatedName := u.repeatedAfter d.name
        index_leads := u.index_leads.register rfl fun
          | .own, h => absurd rfl h
          | .library, _ => rfl
        repeatedName_eq_none_iff := by
          rw [repeatedAfter_eq_none_iff]
          simp only [names, visible, List.map_append, List.append_assoc, List.map_cons,
            List.singleton_append, nodup_insert_iff] }
  | .library =>
      { own := u.own
        library := u.library ++ [d]
        index := u.index.register d.name ⟨.library, u.library.length⟩
        repeatedName := u.repeatedAfter d.name
        index_leads := u.index_leads.register rfl fun
          | .own, _ => rfl
          | .library, h => absurd rfl h
        repeatedName_eq_none_iff := by
          rw [repeatedAfter_eq_none_iff]
          have h : (u.names ++ [d.name]).Nodup ↔ (u.names ++ []).Nodup ∧ d.name ∉ u.names ++ [] :=
            nodup_insert_iff
          simpa [names, visible, ← List.append_assoc] using h.symm }

def addAll (u : CompilationUnit) (origin : Origin) (ds : List Declaration) : CompilationUnit :=
  ds.foldl (fun u d => u.add origin d) u

def ofLists (own library : List Declaration) : CompilationUnit :=
  (empty.addAll .library library).addAll .own own

def check (u : CompilationUnit) : Except DeclarationError Unit :=
  match u.repeatedName with
  | some name => .error (.declaredTwice name)
  | none => .ok ()

def ownDeclarations (u : CompilationUnit) : Except DeclarationError (List Declaration) := do
  u.check
  return u.own

def lookup (u : CompilationUnit) (name : String) :
    Except DeclarationError (Option Declaration) := do
  u.check
  return (u.index.lookup name).bind u.at?

theorem lookup_eq (u : CompilationUnit) (name : String) :
    u.lookup name = u.check.map fun _ => (u.index.lookup name).bind u.at? := by
  rw [lookup]
  cases u.check <;> rfl

theorem mem_of_lookup_eq_some {u : CompilationUnit} {name : String} {d : Declaration}
    (h : u.lookup name = .ok (some d)) : d ∈ u.visible ∧ d.name = name := by
  rw [lookup_eq] at h
  cases hcheck : u.check with
  | error cause =>
      rw [hcheck] at h
      cases h
  | ok checked =>
      rw [hcheck] at h
      obtain ⟨p, hp, hd⟩ := Option.bind_eq_some_iff.1 (Except.ok.inj h)
      obtain ⟨e, he, hname⟩ := at?_of_lookup hp
      cases Option.some.inj (hd.symm.trans he)
      exact ⟨mem_visible_of_at? hd, hname⟩

end CompilationUnit

end ActionWiring
