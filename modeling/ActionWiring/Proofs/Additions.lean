import ActionWiring.Proofs.Lookups

namespace ActionWiring.CompilationUnit

def addEach (u : CompilationUnit) (adds : List (Origin × Declaration)) : CompilationUnit :=
  adds.foldl (fun u a => u.add a.1 a.2) u

def addedTo (origin : Origin) (adds : List (Origin × Declaration)) : List Declaration :=
  (adds.filter fun a => a.1 = origin).map Prod.snd

theorem addedTo_cons (origin : Origin) (a : Origin × Declaration)
    (adds : List (Origin × Declaration)) :
    addedTo origin (a :: adds) =
      if a.1 = origin then a.2 :: addedTo origin adds else addedTo origin adds := by
  by_cases h : a.1 = origin
  · simp [addedTo, h]
  · simp [addedTo, h]

theorem addedTo_append (origin : Origin) (adds adds' : List (Origin × Declaration)) :
    addedTo origin (adds ++ adds') = addedTo origin adds ++ addedTo origin adds' := by
  rw [addedTo, List.filter_append, List.map_append, ← addedTo, ← addedTo]

theorem addedTo_map (origin goal : Origin) (ds : List Declaration) :
    addedTo goal (ds.map (Prod.mk origin)) = if origin = goal then ds else [] := by
  induction ds with
  | nil => simp [addedTo]
  | cons d ds ih =>
      rw [List.map_cons, addedTo_cons, ih]
      by_cases h : origin = goal
      · simp [h]
      · simp [h]

theorem mem_addedTo {origin : Origin} {adds : List (Origin × Declaration)} {d : Declaration} :
    d ∈ addedTo origin adds ↔ (origin, d) ∈ adds := by
  simp only [addedTo, List.mem_map, List.mem_filter, decide_eq_true_eq]
  constructor
  · rintro ⟨⟨origin, d⟩, ⟨h, rfl⟩, rfl⟩
    exact h
  · intro h
    exact ⟨(origin, d), ⟨h, rfl⟩, rfl⟩

theorem held_add (u : CompilationUnit) (origin : Origin) (d : Declaration) (o : Origin) :
    (u.add origin d).held o = u.held o ++ addedTo o [(origin, d)] := by
  cases origin <;> cases o <;> simp [add, held, declarationsOf, addedTo]

theorem held_addEach (u : CompilationUnit) (adds : List (Origin × Declaration)) (origin : Origin) :
    (u.addEach adds).held origin = u.held origin ++ addedTo origin adds := by
  induction adds generalizing u with
  | nil => simp [addEach, addedTo]
  | cons a adds ih =>
      rw [addEach, List.foldl_cons, ← addEach, ih, held_add, List.append_assoc, ← addedTo_append]
      rfl

theorem own_addEach (u : CompilationUnit) (adds : List (Origin × Declaration)) :
    (u.addEach adds).own = u.own ++ addedTo .own adds :=
  u.held_addEach adds .own

theorem library_addEach (u : CompilationUnit) (adds : List (Origin × Declaration)) :
    (u.addEach adds).library = u.library ++ addedTo .library adds :=
  u.held_addEach adds .library

theorem addedTo_perm (adds : List (Origin × Declaration)) :
    (addedTo .own adds ++ addedTo .library adds).Perm (adds.map Prod.snd) := by
  have hlibrary : addedTo .library adds =
      (adds.filter fun a => !decide (a.1 = .own)).map Prod.snd := by
    rw [addedTo]
    congr 2
    funext a
    cases a.1 <;> rfl
  rw [hlibrary, addedTo, ← List.map_append]
  exact (List.filter_append_perm _ adds).map Prod.snd

theorem visible_addEach_perm (u : CompilationUnit) (adds : List (Origin × Declaration)) :
    (u.addEach adds).visible.Perm (u.visible ++ adds.map Prod.snd) := by
  rw [visible, own_addEach, library_addEach, visible]
  have hmiddle : (u.own ++ addedTo .own adds ++ (u.library ++ addedTo .library adds)).Perm
      (u.own ++ u.library ++ (addedTo .own adds ++ addedTo .library adds)) := by
    simp only [List.append_assoc]
    refine List.Perm.append_left _ ?_
    simp only [← List.append_assoc]
    exact List.perm_append_comm.append_right _
  exact hmiddle.trans ((addedTo_perm adds).append_left _)

theorem mem_visible_addEach {u : CompilationUnit} {adds : List (Origin × Declaration)}
    {d : Declaration} :
    d ∈ (u.addEach adds).visible ↔ d ∈ u.visible ∨ ∃ a ∈ adds, a.2 = d := by
  rw [(u.visible_addEach_perm adds).mem_iff, List.mem_append, List.mem_map]

theorem names_addEach_nodup_iff {u : CompilationUnit} {adds : List (Origin × Declaration)} :
    (u.addEach adds).names.Nodup ↔
      u.names.Nodup ∧ (adds.map fun a => a.2.name).Nodup ∧ ∀ a ∈ adds, a.2.name ∉ u.names := by
  have hperm := (u.visible_addEach_perm adds).map Declaration.name
  rw [names, hperm.nodup_iff, List.map_append, List.map_map, List.nodup_append, ← names]
  refine and_congr_right fun _ => and_congr_right fun _ => ?_
  constructor
  · intro h a ha hmem
    exact h _ hmem _ (List.mem_map_of_mem ha) rfl
  · rintro h name hname _ hmem rfl
    obtain ⟨a, ha, rfl⟩ := List.mem_map.1 hmem
    exact h a ha hname

end ActionWiring.CompilationUnit
