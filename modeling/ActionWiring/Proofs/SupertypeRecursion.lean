import Mathlib.Data.List.Basic
import ActionWiring.Proofs.SupertypeWalk

namespace ActionWiring

def noted (taken : List String) (found : List Declaration) : List String :=
  (found.map Declaration.name).reverse ++ taken

theorem noted_nil (taken : List String) : noted taken [] = taken := rfl

theorem noted_cons (taken : List String) (d : Declaration) (found : List Declaration) :
    noted taken (d :: found) = noted (d.name :: taken) found := by
  simp [noted]

theorem noted_append (taken : List String) (found rest : List Declaration) :
    noted taken (found ++ rest) = noted (noted taken found) rest := by
  simp [noted]

theorem mem_noted {taken : List String} {found : List Declaration} {name : String} :
    name ∈ noted taken found ↔ name ∈ taken ∨ name ∈ found.map Declaration.name := by
  rw [noted, List.mem_append, List.mem_reverse, or_comm]

namespace CompilationUnit

variable {u : CompilationUnit} {d e : Declaration} {name root owner : String}
  {names taken : List String}

def untaken (u : CompilationUnit) (taken : List String) : Nat :=
  (u.names.filter fun name => decide (name ∉ taken)).length

theorem untaken_anti {more : List String} (h : ∀ name ∈ taken, name ∈ more) :
    u.untaken more ≤ u.untaken taken := by
  refine (List.monotone_filter_right u.names fun name hname => ?_).length_le
  rw [decide_eq_true_iff] at hname ⊢
  exact mt (h name) hname

theorem untaken_lt (hl : u.lookup name = .ok (some d)) (hname : name ∉ taken) :
    u.untaken (name :: taken) < u.untaken taken := by
  obtain ⟨hmem, rfl⟩ := mem_of_lookup_eq_some hl
  exact Walk.filter_unseen_lt (List.mem_map_of_mem hmem) hname

def visit (u : CompilationUnit) (root owner : String) (taken : List String) :
    List String → Except DeclarationError (List Declaration)
  | [] => .ok []
  | name :: names =>
      if name = root then .error (.ownSupertype root)
      else if _hname : name ∈ taken then u.visit root owner taken names
      else
        match _hl : u.lookup name with
        | .error cause => .error cause
        | .ok none => .error (.unknownSupertype owner name)
        | .ok (some d) => do
            let below ← u.visit root d.name (name :: taken) d.supertypes
            let rest ← u.visit root owner (noted (name :: taken) below) names
            return d :: (below ++ rest)
termination_by names => (u.untaken taken, names.length)
decreasing_by
  · exact Prod.Lex.right _ (Nat.lt_succ_self _)
  · exact Prod.Lex.left _ _ (untaken_lt _hl _hname)
  · refine Prod.Lex.left _ _ (Nat.lt_of_le_of_lt (untaken_anti ?_) (untaken_lt _hl _hname))
    exact fun _ hmem => mem_noted.2 (.inl hmem)

theorem visit_taken (hroot : name ≠ root) (hname : name ∈ taken) :
    u.visit root owner taken (name :: names) = u.visit root owner taken names := by
  rw [visit, if_neg hroot, dif_pos hname]

theorem visit_new (hroot : name ≠ root) (hname : name ∉ taken)
    (hl : u.lookup name = .ok (some d)) :
    u.visit root owner taken (name :: names) = do
      let below ← u.visit root d.name (name :: taken) d.supertypes
      let rest ← u.visit root owner (noted (name :: taken) below) names
      return d :: (below ++ rest) := by
  rw [visit, if_neg hroot, dif_neg hname]
  split
  · simp_all
  · simp_all
  · simp_all

end CompilationUnit

namespace Walk

variable {u : CompilationUnit} {root owner name : String} {names seen : List String}
  {frames : List Frame} {found : List Declaration}

theorem run_root :
    run u root { stack := ⟨owner, root :: names⟩ :: frames, seen, found } =
      .error (.ownSupertype root) :=
  run_of_failed (by simp [next])

theorem run_seen (hroot : name ≠ root) (hname : name ∈ seen) :
    run u root { stack := ⟨owner, name :: names⟩ :: frames, seen, found } =
      run u root { stack := ⟨owner, names⟩ :: frames, seen, found } :=
  run_of_step (by simp [next, hroot, hname])

theorem run_unanswered (hroot : name ≠ root) (hname : name ∉ seen) {cause : DeclarationError}
    (hl : u.lookup name = .error cause) :
    run u root { stack := ⟨owner, name :: names⟩ :: frames, seen, found } = .error cause :=
  run_of_failed (by simp [next, hroot, hname, hl])

theorem run_unknown (hroot : name ≠ root) (hname : name ∉ seen)
    (hl : u.lookup name = .ok none) :
    run u root { stack := ⟨owner, name :: names⟩ :: frames, seen, found } =
      .error (.unknownSupertype owner name) :=
  run_of_failed (by simp [next, hroot, hname, hl])

theorem run_new (hroot : name ≠ root) (hname : name ∉ seen) {d : Declaration}
    (hl : u.lookup name = .ok (some d)) :
    run u root { stack := ⟨owner, name :: names⟩ :: frames, seen, found } =
      run u root
        { stack := ⟨d.name, d.supertypes⟩ :: ⟨owner, names⟩ :: frames
          seen := name :: seen
          found := found ++ [d] } :=
  run_of_step (by simp [next, hroot, hname, hl])

-- A frame on top of the stack is worked off by a visit of what is pending in it.
theorem run_visit (u : CompilationUnit) (root owner : String) (seen names : List String)
    (frames : List Frame) (found : List Declaration) :
    run u root { stack := ⟨owner, names⟩ :: frames, seen, found } =
      u.visit root owner seen names >>= fun more =>
        run u root { stack := frames, seen := noted seen more, found := found ++ more } := by
  fun_induction CompilationUnit.visit u root owner seen names generalizing frames found with
  | case1 owner seen =>
      rw [run_of_step rfl]
      simp [noted_nil, bind, Except.bind]
  | case2 owner seen names => exact run_root
  | case3 owner seen name names hroot hname ih => rw [run_seen hroot hname, ih]
  | case4 owner seen name names hroot hname cause hl => exact run_unanswered hroot hname hl
  | case5 owner seen name names hroot hname hl => exact run_unknown hroot hname hl
  | case6 owner seen name names hroot hname d hl ihbelow ihrest =>
      have hd : d.name = name := CompilationUnit.lookup_name hl
      rw [run_new hroot hname hl, ihbelow, bind_assoc]
      refine bind_congr fun below => ?_
      rw [ihrest, bind_assoc]
      refine bind_congr fun rest => ?_
      rw [pure_bind, noted_cons, noted_append, hd]
      simp only [List.append_assoc, List.cons_append, List.nil_append]

end Walk

def sameName (d e : Declaration) : Bool := d.name == e.name

def firsts (taken : List String) : List Declaration → List Declaration
  | [] => []
  | d :: ds => if d.name ∈ taken then firsts taken ds else d :: firsts (d.name :: taken) ds

theorem firsts_append (taken : List String) (ds es : List Declaration) :
    firsts taken (ds ++ es) = firsts taken ds ++ firsts (noted taken (firsts taken ds)) es := by
  induction ds generalizing taken with
  | nil => rfl
  | cons d ds ih =>
      rw [List.cons_append, firsts, firsts]
      split
      · exact ih taken
      · rw [ih, noted_cons, List.cons_append]

theorem firsts_eq_nil {taken : List String} {ds : List Declaration}
    (h : ∀ d ∈ ds, d.name ∈ taken) : firsts taken ds = [] := by
  induction ds with
  | nil => rfl
  | cons d ds ih =>
      rw [List.forall_mem_cons] at h
      rw [firsts, if_pos h.1, ih h.2]

theorem mem_noted_firsts {taken : List String} {ds : List Declaration} {name : String} :
    name ∈ noted taken (firsts taken ds) ↔ name ∈ taken ∨ name ∈ ds.map Declaration.name := by
  induction ds generalizing taken with
  | nil => simp [firsts, noted_nil]
  | cons d ds ih =>
      rw [firsts]
      split
      · rename_i hd
        rw [ih, List.map_cons, List.mem_cons]
        refine ⟨fun h => h.imp_right .inr, ?_⟩
        rintro (h | rfl | h)
        · exact .inl h
        · exact .inl hd
        · exact .inr h
      · rw [noted_cons, ih, List.map_cons, List.mem_cons, List.mem_cons, or_assoc, or_left_comm]

theorem firsts_eq_eraseDupsBy (taken : List String) (ds : List Declaration) :
    firsts taken ds = (ds.filter fun d => d.name ∉ taken).eraseDupsBy sameName := by
  induction ds generalizing taken with
  | nil => rfl
  | cons d ds ih =>
      rw [firsts]
      by_cases hd : d.name ∈ taken
      · rw [if_pos hd, ih, List.filter_cons_of_neg (by simpa using hd)]
      · rw [if_neg hd, ih, List.filter_cons_of_pos (by simpa using hd), List.eraseDupsBy_cons,
          List.filter_filter]
        congr 3
        funext e
        simp [sameName]

namespace CompilationUnit

variable {u : CompilationUnit} {d e : Declaration} {name root owner : String}
  {names taken : List String} {tree : List Declaration}

inductive Unfolds (u : CompilationUnit) : List String → List Declaration → Prop
  | nil : Unfolds u [] []
  | cons {name : String} {names : List String} {d : Declaration} {below rest : List Declaration} :
      u.lookup name = .ok (some d) → Unfolds u d.supertypes below → Unfolds u names rest →
        Unfolds u (name :: names) (d :: (below ++ rest))

namespace Unfolds

theorem unique {tree' : List Declaration} (h : u.Unfolds names tree) (h' : u.Unfolds names tree') :
    tree = tree' := by
  induction h generalizing tree' with
  | nil =>
      cases h'
      rfl
  | cons hl _ _ ihbelow ihrest =>
      cases h' with
      | cons hl' hbelow hrest =>
          cases lookup_unique hl hl'
          rw [ihbelow hbelow, ihrest hrest]

theorem located (h : u.Unfolds names tree) : ∀ e ∈ tree, u.lookup e.name = .ok (some e) := by
  induction h with
  | nil => simp
  | cons hl _ _ ihbelow ihrest =>
      rw [List.forall_mem_cons, List.forall_mem_append]
      exact ⟨(lookup_name hl).symm ▸ hl, ihbelow, ihrest⟩

theorem holds_names (h : u.Unfolds names tree) :
    ∀ name ∈ names, name ∈ tree.map Declaration.name := by
  induction h with
  | nil => simp
  | cons hl _ _ _ ihrest =>
      rw [List.forall_mem_cons, List.map_cons, List.map_append, lookup_name hl]
      refine ⟨List.mem_cons_self, fun name hname => ?_⟩
      exact List.mem_cons_of_mem _ (List.mem_append_right _ (ihrest name hname))

theorem holds_supertypes (h : u.Unfolds names tree) :
    ∀ e ∈ tree, ∀ name ∈ e.supertypes, name ∈ tree.map Declaration.name := by
  induction h with
  | nil => simp
  | cons _ hbelow _ ihbelow ihrest =>
      rw [List.map_cons, List.map_append, List.forall_mem_cons, List.forall_mem_append]
      refine ⟨fun name hname => ?_, fun e he name hname => ?_, fun e he name hname => ?_⟩
      · exact List.mem_cons_of_mem _ (List.mem_append_left _ (hbelow.holds_names name hname))
      · exact List.mem_cons_of_mem _ (List.mem_append_left _ (ihbelow e he name hname))
      · exact List.mem_cons_of_mem _ (List.mem_append_right _ (ihrest e he name hname))

theorem reached (h : u.Unfolds names tree) (start : ∀ name ∈ names, u.Ancestor d name) :
    ∀ e ∈ tree, u.Ancestor d e.name := by
  induction h with
  | nil => simp
  | cons hl _ _ ihbelow ihrest =>
      rw [List.forall_mem_cons] at start
      rw [List.forall_mem_cons, List.forall_mem_append]
      exact ⟨(lookup_name hl).symm ▸ start.1,
        ihbelow fun name hname => .beyond start.1 hl hname, ihrest start.2⟩

theorem ancestor_iff (h : u.Unfolds d.supertypes tree) :
    u.Ancestor d name ↔ name ∈ tree.map Declaration.name := by
  constructor
  · refine fun hanc => hanc.mem_of_closed h.holds_names ?_
    intro middle hmiddle e hl name hname
    obtain ⟨x, hx, rfl⟩ := List.mem_map.1 hmiddle
    exact h.holds_supertypes e (lookup_unique (h.located x hx) hl ▸ hx) name hname
  · intro hname
    obtain ⟨e, he, rfl⟩ := List.mem_map.1 hname
    exact h.reached (fun _ => .direct) e he

end Unfolds

def Settled (u : CompilationUnit) (taken : List String) (tree : List Declaration) : Prop :=
  ∀ e ∈ tree, e.name ∈ taken → ∀ name, u.Ancestor e name → name ∈ taken

namespace Settled

variable {below rest : List Declaration} (settled : u.Settled taken (d :: (below ++ rest)))

include settled

theorem of_mem_rest : u.Settled taken rest := fun e he =>
  settled e (List.mem_cons_of_mem _ (List.mem_append_right _ he))

variable (hbelow : u.Unfolds d.supertypes below)

include hbelow

theorem firsts_below (hname : d.name ∈ taken) : firsts taken below = [] :=
  firsts_eq_nil fun _ he =>
    settled d List.mem_cons_self hname _ (hbelow.ancestor_iff.2 (List.mem_map_of_mem he))

theorem enter (acyclic : ¬ u.Ancestor d d.name) : u.Settled (d.name :: taken) below := by
  intro e he hmem name hanc
  rcases List.mem_cons.1 hmem with hname | hmem
  · exact absurd (hbelow.ancestor_iff.2 (hname ▸ List.mem_map_of_mem he)) acyclic
  · exact List.mem_cons_of_mem _
      (settled e (List.mem_cons_of_mem _ (List.mem_append_left _ he)) hmem name hanc)

theorem leave (hl : u.lookup d.name = .ok (some d)) (hrest : u.Unfolds names rest) :
    u.Settled (noted (d.name :: taken) (firsts (d.name :: taken) below)) rest := by
  intro e he hmem name hanc
  have hle := hrest.located e he
  rw [mem_noted_firsts, List.mem_cons, or_assoc] at hmem ⊢
  rcases hmem with hname | hmem | hmem
  · rw [hname] at hle
    exact .inr (.inr (hbelow.ancestor_iff.1 (lookup_unique hle hl ▸ hanc)))
  · exact .inr (.inl (settled.of_mem_rest e he hmem name hanc))
  · exact .inr (.inr (hbelow.ancestor_iff.1 ((hbelow.ancestor_iff.2 hmem).trans hle hanc)))

end Settled

-- Without cycles a name that is passed over was left behind with all that stands above it: the visit
-- adds nothing where the unfolding repeats itself.
theorem visit_of_unfolds (h : u.Unfolds names tree) (proper : ∀ e ∈ tree, e.name ≠ root)
    (acyclic : ∀ e ∈ tree, ¬ u.Ancestor e e.name) (settled : u.Settled taken tree) :
    u.visit root owner taken names = .ok (firsts taken tree) := by
  induction h generalizing owner taken with
  | nil => rw [visit, firsts]
  | @cons name names d below rest hl hbelow hrest ihbelow ihrest =>
      obtain rfl : d.name = name := lookup_name hl
      rw [List.forall_mem_cons, List.forall_mem_append] at proper acyclic
      obtain ⟨hroot, pbelow, prest⟩ := proper
      obtain ⟨hacyclic, abelow, arest⟩ := acyclic
      by_cases hname : d.name ∈ taken
      · rw [visit_taken hroot hname, ihrest prest arest settled.of_mem_rest, firsts, if_pos hname,
          firsts_append, settled.firsts_below hbelow hname, noted_nil, List.nil_append]
      · rw [visit_new hroot hname hl, ihbelow pbelow abelow (settled.enter hbelow hacyclic), firsts,
          if_neg hname, firsts_append]
        exact bind_pure_eq_ok.2 ⟨_, ihrest prest arest (settled.leave hbelow hl hrest), rfl⟩

open Classical in
noncomputable def rank (u : CompilationUnit) (d : Declaration) : Nat :=
  (u.names.filter fun name => u.Ancestor d name).length

theorem rank_lt (hl : u.lookup name = .ok (some e)) (hanc : u.Ancestor d name)
    (acyclic : ¬ u.Ancestor e e.name) : u.rank e < u.rank d := by
  classical
  obtain ⟨hmem, rfl⟩ := mem_of_lookup_eq_some hl
  have hsub : (u.names.filter fun name => u.Ancestor e name) =
      (u.names.filter fun name => u.Ancestor d name).filter fun name => u.Ancestor e name := by
    rw [List.filter_filter]
    refine List.filter_congr fun name _ => ?_
    rw [Bool.eq_iff_iff, Bool.and_eq_true, decide_eq_true_iff, decide_eq_true_iff]
    exact ⟨fun h => ⟨h, hanc.trans hl h⟩, And.left⟩
  rw [rank, hsub]
  refine List.length_filter_lt_length_iff_exists.2 ⟨e.name, ?_, by simpa using acyclic⟩
  simpa using ⟨List.mem_map_of_mem hmem, hanc⟩

theorem exists_unfolds (known : ∀ name, u.Ancestor d name → ∃ e, u.lookup name = .ok (some e))
    (acyclic : ∀ e, u.Above d e → ¬ u.Ancestor e e.name) :
    ∃ tree, u.Unfolds d.supertypes tree := by
  induction hr : u.rank d using Nat.strongRecOn generalizing d with
  | ind n ih =>
    have hnames : ∀ names, (∀ name ∈ names, name ∈ d.supertypes) → ∃ tree, u.Unfolds names tree := by
      intro names
      induction names with
      | nil => exact fun _ => ⟨[], .nil⟩
      | cons name names ihnames =>
          intro hsub
          rw [List.forall_mem_cons] at hsub
          have hanc : u.Ancestor d name := .direct hsub.1
          obtain ⟨e, hl⟩ := known name hanc
          have hlt : u.rank e < n := hr ▸ rank_lt hl hanc (acyclic e ⟨name, hanc, hl⟩)
          obtain ⟨below, hbelow⟩ := ih _ hlt (fun _ h => known _ (hanc.trans hl h))
            (fun f ⟨other, h, hf⟩ => acyclic f ⟨other, hanc.trans hl h, hf⟩) rfl
          obtain ⟨rest, hrest⟩ := ihnames hsub.2
          exact ⟨_, .cons hl hbelow hrest⟩
    exact hnames d.supertypes fun _ h => h

theorem transitiveSupertypes_eq_visit (u : CompilationUnit) (d : Declaration) :
    u.transitiveSupertypes d = u.visit d.name d.name [] d.supertypes := by
  rw [transitiveSupertypes, Walk.start, Walk.run_visit]
  cases u.visit d.name d.name [] d.supertypes with
  | error cause => rfl
  | ok found => exact Walk.run_of_finished rfl

theorem transitiveSupertypes_preorder (u : CompilationUnit) (d : Declaration) :
    u.transitiveSupertypes d = u.visit d.name d.name [] d.supertypes ∧
    ∀ found, u.transitiveSupertypes d = .ok found →
      (∀ name e, u.Ancestor d name → u.lookup name = .ok (some e) → ¬ u.Ancestor e e.name) →
      ∃ tree, (∀ tree', u.Unfolds d.supertypes tree' ↔ tree' = tree) ∧
        found = tree.eraseDupsBy fun e f => e.name == f.name := by
  refine ⟨transitiveSupertypes_eq_visit u d, fun found h acyclic => ?_⟩
  have sound : u.SoundHierarchy d := (listsAbove_of_ok h).soundHierarchy
  obtain ⟨tree, htree⟩ := exists_unfolds sound.known fun e ⟨name, hanc, hl⟩ => acyclic name e hanc hl
  have hanc : ∀ e ∈ tree, u.Ancestor d e.name := htree.reached fun _ => .direct
  have hproper : ∀ e ∈ tree, e.name ≠ d.name := fun e he heq => sound.proper (heq ▸ hanc e he)
  have hacyclic : ∀ e ∈ tree, ¬ u.Ancestor e e.name := fun e he =>
    acyclic e.name e (hanc e he) (htree.located e he)
  have hvisit : u.visit d.name d.name [] d.supertypes = .ok (firsts [] tree) :=
    visit_of_unfolds htree hproper hacyclic fun e _ hmem => absurd hmem List.not_mem_nil
  rw [transitiveSupertypes_eq_visit, hvisit, Except.ok.injEq, firsts_eq_eraseDupsBy] at h
  refine ⟨tree, fun tree' => ⟨fun h' => h'.unique htree, fun h' => h' ▸ htree⟩, ?_⟩
  rw [← h, List.filter_eq_self.2 fun e _ => by simp]
  rfl

def diamondLeaf : Declaration where
  name := "Leaf"
  supertypes := ["Left", "Right", "Top"]

def diamondLeft : Declaration where
  name := "Left"
  supertypes := ["Top"]

def diamondRight : Declaration where
  name := "Right"
  supertypes := ["Top", "Left"]

def diamondTop : Declaration where
  name := "Top"

def diamondUnit : CompilationUnit :=
  ofLists [diamondLeaf, diamondRight] [diamondTop, diamondLeft]

theorem transitiveSupertypes_preorder_diamond :
    diamondUnit.transitiveSupertypes diamondLeaf = .ok [diamondLeft, diamondTop, diamondRight] ∧
    (∀ name e, diamondUnit.Ancestor diamondLeaf name → diamondUnit.lookup name = .ok (some e) →
      ¬ diamondUnit.Ancestor e e.name) ∧
    ∃ tree, diamondUnit.Unfolds diamondLeaf.supertypes tree ∧
      tree.map Declaration.name = ["Left", "Top", "Right", "Top", "Left", "Top", "Top"] ∧
      [diamondLeft, diamondTop, diamondRight] = tree.eraseDupsBy fun e f => e.name == f.name := by
  have hleft : diamondUnit.lookup "Left" = .ok (some diamondLeft) := rfl
  have hright : diamondUnit.lookup "Right" = .ok (some diamondRight) := rfl
  have htop : diamondUnit.lookup "Top" = .ok (some diamondTop) := rfl
  have hfound : diamondUnit.transitiveSupertypes diamondLeaf =
      .ok [diamondLeft, diamondTop, diamondRight] :=
    transitiveSupertypes_eq_of_runWithin 20 rfl
  have tleft : diamondUnit.Unfolds diamondLeft.supertypes [diamondTop] := .cons htop .nil .nil
  have tright : diamondUnit.Unfolds diamondRight.supertypes [diamondTop, diamondLeft, diamondTop] :=
    .cons htop .nil (.cons hleft tleft .nil)
  have tleaf : diamondUnit.Unfolds diamondLeaf.supertypes
      [diamondLeft, diamondTop, diamondRight, diamondTop, diamondLeft, diamondTop, diamondTop] :=
    .cons hleft tleft (.cons hright tright (.cons htop .nil .nil))
  have hacyclic : ∀ name e, diamondUnit.Ancestor diamondLeaf name →
      diamondUnit.lookup name = .ok (some e) → ¬ diamondUnit.Ancestor e e.name := by
    intro name e hanc hl
    have hmem := (listsAbove_of_ok hfound).names_iff name |>.1 hanc
    simp only [List.map_cons, List.map_nil, List.mem_cons, List.not_mem_nil, or_false] at hmem
    rcases hmem with rfl | rfl | rfl
    · cases lookup_unique hl hleft
      exact fun h => by simpa [diamondLeft, diamondTop] using tleft.ancestor_iff.1 h
    · cases lookup_unique hl htop
      exact not_ancestor_of_no_supertypes rfl
    · cases lookup_unique hl hright
      exact fun h => by simpa [diamondLeft, diamondTop, diamondRight] using tright.ancestor_iff.1 h
  obtain ⟨tree, htree, hfirst⟩ :=
    (transitiveSupertypes_preorder diamondUnit diamondLeaf).2 _ hfound hacyclic
  obtain rfl := (htree _).1 tleaf
  exact ⟨hfound, hacyclic, _, tleaf, rfl, hfirst⟩

end CompilationUnit

end ActionWiring
