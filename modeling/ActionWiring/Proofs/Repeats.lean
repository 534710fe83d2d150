import Mathlib.Data.List.Induction
import ActionWiring.Proofs.Additions
import ActionWiring.Proofs.Planning

namespace ActionWiring

def FirstRepeat (names : List String) (name : String) : Prop :=
  ∃ earlier later, names = earlier ++ name :: later ∧ earlier.Nodup ∧ name ∈ earlier

theorem nodup_append_singleton {names : List String} {name : String} (h : names.Nodup)
    (hname : name ∉ names) : (names ++ [name]).Nodup := by
  refine List.nodup_append.2 ⟨h, List.nodup_cons.2 ⟨List.not_mem_nil, List.nodup_nil⟩, ?_⟩
  intro other hother last hlast heq
  rw [heq, List.mem_singleton.1 hlast] at hother
  exact hname hother

theorem exists_firstRepeat {names : List String} (h : ¬ names.Nodup) :
    ∃ name, FirstRepeat names name := by
  induction names using List.reverseRecOn with
  | nil => exact absurd List.nodup_nil h
  | append_singleton names last ih =>
      by_cases hn : names.Nodup
      · by_cases hlast : last ∈ names
        · exact ⟨last, names, [], rfl, hn, hlast⟩
        · exact absurd (nodup_append_singleton hn hlast) h
      · obtain ⟨name, earlier, later, rfl, hnodup, hmem⟩ := ih hn
        exact ⟨name, earlier, later ++ [last], by simp, hnodup, hmem⟩

namespace CompilationUnit

variable {u : CompilationUnit} {adds : List (Origin × Declaration)} {name : String}

theorem addEach_append (u : CompilationUnit) (adds adds' : List (Origin × Declaration)) :
    u.addEach (adds ++ adds') = (u.addEach adds).addEach adds' :=
  List.foldl_append

theorem mem_names_addEach :
    name ∈ (u.addEach adds).names ↔ name ∈ u.names ∨ name ∈ adds.map fun a => a.2.name := by
  rw [names, ((u.visible_addEach_perm adds).map Declaration.name).mem_iff, List.map_append,
    List.mem_append, List.map_map, ← names]
  rfl

theorem repeatedName_add (u : CompilationUnit) (origin : Origin) (d : Declaration) :
    (u.add origin d).repeatedName = u.repeatedAfter d.name := by
  cases origin with
  | own => rfl
  | library => rfl

theorem repeatedName_addEach_of_some (h : u.repeatedName = some name)
    (adds : List (Origin × Declaration)) : (u.addEach adds).repeatedName = some name := by
  induction adds generalizing u with
  | nil => exact h
  | cons a adds ih =>
      have hadd : (u.add a.1 a.2).repeatedName = some name := by
        rw [repeatedName_add, repeatedAfter, h]
      exact ih hadd

theorem repeatedName_add_of_mem (distinct : u.names.Nodup) (origin : Origin) {d : Declaration}
    (h : d.name ∈ u.names) : (u.add origin d).repeatedName = some d.name := by
  have hnone : u.repeatedName = none := u.repeatedName_eq_none_iff.2 distinct
  have hindexed : (u.index.lookup d.name).isSome := by
    rw [Option.isSome_iff_ne_none, Ne, index_lookup_eq_none_iff, not_not]
    exact h
  rw [repeatedName_add, repeatedAfter, hnone]
  exact if_pos hindexed

theorem names_empty : empty.names = [] := rfl

theorem names_addEach_empty_nodup_iff :
    (empty.addEach adds).names.Nodup ↔ (adds.map fun a => a.2.name).Nodup := by
  rw [names_addEach_nodup_iff, names_empty]
  simp

theorem repeatedName_of_firstRepeat (h : FirstRepeat (adds.map fun a => a.2.name) name) :
    (empty.addEach adds).repeatedName = some name := by
  obtain ⟨earlierNames, laterNames, hnames, hnodup, hmem⟩ := h
  obtain ⟨earlier, rest, rfl, rfl, hrest⟩ := List.map_eq_append_iff.1 hnames
  obtain ⟨again, later, rfl, rfl, -⟩ := List.map_eq_cons_iff.1 hrest
  have hearlier : (empty.addEach earlier).names.Nodup := names_addEach_empty_nodup_iff.2 hnodup
  have hagain : ((empty.addEach earlier).add again.1 again.2).repeatedName = some again.2.name :=
    repeatedName_add_of_mem hearlier again.1 (mem_names_addEach.2 (.inr hmem))
  rw [addEach_append]
  exact repeatedName_addEach_of_some hagain later

structure AnswersRepeat (u : CompilationUnit) (name : String) : Prop where
  lookup : ∀ asked, u.lookup asked = .error (.declaredTwice name)
  ownDeclarations : u.ownDeclarations = .error (.declaredTwice name)
  plan : ∀ s, u.plan s = .error (.model (.declaredTwice name))
  generate : ∀ s, u.generate s = .error (.model (.declaredTwice name))

theorem check_of_repeatedName (h : u.repeatedName = some name) :
    u.check = .error (.declaredTwice name) := by
  rw [check, h]

theorem answersRepeat (h : u.repeatedName = some name) : u.AnswersRepeat name := by
  have hcheck : u.check = .error (.declaredTwice name) := check_of_repeatedName h
  have hown : u.ownDeclarations = .error (.declaredTwice name) := by
    rw [CompilationUnit.ownDeclarations, hcheck]
    rfl
  have hplan : ∀ s, u.plan s = .error (.model (.declaredTwice name)) := by
    intro s
    rw [CompilationUnit.plan, hown]
    rfl
  refine ⟨fun asked => ?_, hown, hplan, fun s => ?_⟩
  · rw [CompilationUnit.lookup, hcheck]
    rfl
  · rw [CompilationUnit.generate, hplan]
    rfl

theorem mem_visible_addEach_empty {d : Declaration} :
    d ∈ (empty.addEach adds).visible ↔ ∃ origin, (origin, d) ∈ adds := by
  rw [mem_visible_addEach]
  constructor
  · rintro (h | ⟨a, ha, rfl⟩)
    · cases h
    · exact ⟨a.1, ha⟩
  · rintro ⟨origin, h⟩
    exact .inr ⟨_, h, rfl⟩

theorem index_add (u : CompilationUnit) (origin : Origin) (d : Declaration) :
    (u.add origin d).index = u.index.register d.name ⟨origin, (u.held origin).length⟩ := by
  cases origin with
  | own => rfl
  | library => rfl

theorem held_addEach_empty (adds : List (Origin × Declaration)) (origin : Origin) :
    (empty.addEach adds).held origin = addedTo origin adds := by
  rw [held_addEach]
  cases origin with
  | own => rfl
  | library => rfl

def FirstAdded (adds : List (Origin × Declaration)) (name : String) (p : Position) : Prop :=
  ∃ earlier d later, adds = earlier ++ (p.origin, d) :: later ∧ d.name = name ∧
    (∀ a ∈ earlier, a.2.name ≠ name) ∧ p.place = (addedTo p.origin earlier).length

theorem firstAdded_concat_iff {origin : Origin} {d : Declaration} {p : Position} :
    FirstAdded (adds ++ [(origin, d)]) name p ↔
      FirstAdded adds name p ∨
        (∀ a ∈ adds, a.2.name ≠ name) ∧ name = d.name ∧
          ⟨origin, (addedTo origin adds).length⟩ = p := by
  constructor
  · rintro ⟨earlier, e, later, hadds, hname, hearlier, hplace⟩
    rcases List.eq_nil_or_concat later with rfl | ⟨front, last, rfl⟩
    · obtain ⟨rfl, hlast⟩ := List.append_inj' hadds rfl
      cases hlast
      exact .inr ⟨hearlier, hname.symm, by rw [← hplace]⟩
    · rw [List.concat_eq_append, ← List.cons_append, ← List.append_assoc] at hadds
      obtain ⟨hfront, -⟩ := List.append_inj' hadds rfl
      exact .inl ⟨earlier, e, front, hfront, hname, hearlier, hplace⟩
  · rintro (⟨earlier, e, later, rfl, hname, hearlier, hplace⟩ | ⟨hadds, rfl, rfl⟩)
    · exact ⟨earlier, e, later ++ [(origin, d)], by simp, hname, hearlier, hplace⟩
    · exact ⟨adds, d, [], rfl, rfl, hadds, rfl⟩

theorem index_addEach_empty {p : Position} :
    (empty.addEach adds).index.lookup name = some p ↔ FirstAdded adds name p := by
  induction adds using List.reverseRecOn with
  | nil =>
      constructor
      · exact fun h => nomatch h
      · rintro ⟨earlier, d, later, hadds, -⟩
        simp at hadds
  | append_singleton adds a ih =>
      obtain ⟨origin, d⟩ := a
      have hadd : empty.addEach (adds ++ [(origin, d)]) = (empty.addEach adds).add origin d :=
        addEach_append empty adds [(origin, d)]
      rw [hadd, index_add, NameIndex.lookup_register_eq_some_iff, ih, index_lookup_eq_none_iff,
        held_addEach_empty, mem_names_addEach, names_empty, firstAdded_concat_iff]
      simp

theorem addEach_answers (adds : List (Origin × Declaration)) :
    (empty.addEach adds).own = addedTo .own adds ∧
    (empty.addEach adds).library = addedTo .library adds ∧
    (∀ name p, (empty.addEach adds).index.lookup name = some p ↔ FirstAdded adds name p) ∧
    (∀ name p, FirstAdded adds name p →
      ∃ d, (addedTo p.origin adds)[p.place]? = some d ∧ d.name = name) ∧
    ((adds.map fun a => a.2.name).Nodup →
      (∀ name d, (empty.addEach adds).lookup name = .ok (some d) ↔
        (∃ origin, (origin, d) ∈ adds) ∧ d.name = name) ∧
      (∀ name, (empty.addEach adds).lookup name = .ok none ↔ ∀ a ∈ adds, a.2.name ≠ name) ∧
      (empty.addEach adds).ownDeclarations = .ok (addedTo .own adds)) ∧
    (∀ name, FirstRepeat (adds.map fun a => a.2.name) name →
      (empty.addEach adds).AnswersRepeat name) ∧
    (¬ (adds.map fun a => a.2.name).Nodup →
      ∃ name, FirstRepeat (adds.map fun a => a.2.name) name) := by
  have hown : (empty.addEach adds).own = addedTo .own adds := own_addEach empty adds
  refine ⟨hown, library_addEach empty adds, fun _ _ => index_addEach_empty, ?_, ?_, ?_,
    exists_firstRepeat⟩
  · intro name p h
    have hfound := at?_of_lookup (index_addEach_empty.2 h)
    rwa [at?, held_addEach_empty] at hfound
  · intro hnodup
    have distinct : (empty.addEach adds).names.Nodup := names_addEach_empty_nodup_iff.2 hnodup
    refine ⟨fun name d => ?_, fun name => ?_, ownDeclarations_eq_ok_iff.2 ⟨distinct, hown⟩⟩
    · rw [lookup_eq_some_iff distinct, mem_visible_addEach_empty]
    · rw [lookup_eq_none_iff distinct, mem_names_addEach, names_empty]
      simp
  · intro name h
    exact answersRepeat (repeatedName_of_firstRepeat h)

def crossedAdditions : List (Origin × Declaration) :=
  [(.library, { name := "Base" }), (.own, { name := "App", supertypes := ["Base"] }),
    (.library, { name := "App" }), (.own, { name := "Base" })]

theorem addEach_answers_crossed :
    FirstRepeat (crossedAdditions.map fun a => a.2.name) "App" ∧
      (empty.addEach crossedAdditions).AnswersRepeat "App" ∧
      (empty.addEach crossedAdditions).own.map Declaration.name = ["App", "Base"] ∧
      (empty.addEach crossedAdditions).index.lookup "Base" = some ⟨.library, 0⟩ ∧
      (empty.addEach (crossedAdditions.take 2)).lookup "Base" = .ok (some { name := "Base" }) := by
  have hfirst : FirstRepeat (crossedAdditions.map fun a => a.2.name) "App" :=
    ⟨["Base", "App"], ["Base"], rfl, by decide, by decide⟩
  obtain ⟨hown, -, hindex, -, -, hrepeat, -⟩ := addEach_answers crossedAdditions
  obtain ⟨-, -, -, -, hdistinct, -⟩ := addEach_answers (crossedAdditions.take 2)
  obtain ⟨hfound, -⟩ := hdistinct (by decide)
  refine ⟨hfirst, hrepeat "App" hfirst, ?_, ?_, ?_⟩
  · rw [hown]
    rfl
  · exact (hindex "Base" ⟨.library, 0⟩).2 ⟨[], { name := "Base" }, _, rfl, rfl, by simp, rfl⟩
  · exact (hfound "Base" { name := "Base" }).2 ⟨⟨.library, List.mem_cons_self⟩, rfl⟩

end CompilationUnit

end ActionWiring
