import ActionWiring.Hierarchy
import ActionWiring.Proofs.Lookups

namespace ActionWiring

namespace Walk

variable {u : CompilationUnit} {root : String} {w v : Walk}

theorem next_step_cases (h : next u root w = .step v) :
    (∃ owner frames, w.stack = ⟨owner, []⟩ :: frames ∧ v = { w with stack := frames }) ∨
    (∃ owner name pending frames, w.stack = ⟨owner, name :: pending⟩ :: frames ∧ name ∈ w.seen ∧
      v = { w with stack := ⟨owner, pending⟩ :: frames }) ∨
    ∃ owner name pending frames d, w.stack = ⟨owner, name :: pending⟩ :: frames ∧ name ≠ root ∧
      name ∉ w.seen ∧ u.lookup name = .ok (some d) ∧
      v = { stack := ⟨d.name, d.supertypes⟩ :: ⟨owner, pending⟩ :: frames
            seen := name :: w.seen
            found := w.found ++ [d] } := by
  unfold next at h
  split at h
  · cases h
  · rename_i owner frames hs
    cases h
    exact .inl ⟨owner, frames, hs, rfl⟩
  · rename_i owner name pending frames hs
    split at h
    · cases h
    rename_i hroot
    split at h
    · rename_i hseen
      cases h
      exact .inr (.inl ⟨owner, name, pending, frames, hs, hseen, rfl⟩)
    rename_i hseen
    split at h
    · cases h
    · cases h
    · rename_i d hd
      cases h
      exact .inr (.inr ⟨owner, name, pending, frames, d, hs, hroot, hseen, hd, rfl⟩)

theorem next_finished {found : List Declaration} (h : next u root w = .finished found) :
    w.stack = [] ∧ found = w.found := by
  unfold next at h
  split at h
  · rename_i hs
    cases h
    exact ⟨hs, rfl⟩
  · cases h
  · split at h
    · cases h
    split at h
    · cases h
    split at h <;> cases h

theorem next_failed_cases (distinct : u.names.Nodup) {cause : DeclarationError}
    (h : next u root w = .failed cause) :
    ∃ owner name pending frames, w.stack = ⟨owner, name :: pending⟩ :: frames ∧
      (name = root ∧ cause = .ownSupertype root ∨
        u.lookup name = .ok none ∧ cause = .unknownSupertype owner name) := by
  unfold next at h
  split at h
  · cases h
  · cases h
  · rename_i owner name pending frames hs
    refine ⟨owner, name, pending, frames, hs, ?_⟩
    split at h
    · rename_i hroot
      cases h
      exact .inl ⟨hroot, rfl⟩
    split at h
    · cases h
    split at h
    · rename_i fault hl
      obtain ⟨found, hf⟩ := CompilationUnit.lookup_ok distinct name
      rw [hf] at hl
      cases hl
    · rename_i hl
      cases h
      exact .inr ⟨hl, rfl⟩
    · cases h

theorem run_eq (u : CompilationUnit) (root : String) (w : Walk) :
    run u root w =
      match next u root w with
      | .finished found => .ok found
      | .failed cause => .error cause
      | .step v => run u root v := by
  rw [run.eq_def]
  split
  · simp_all
  · simp_all
  · simp_all

theorem run_of_step (h : next u root w = .step v) : run u root w = run u root v := by
  rw [run_eq, h]

theorem run_of_finished {found : List Declaration} (h : next u root w = .finished found) :
    run u root w = .ok found := by
  rw [run_eq, h]

theorem run_of_failed {cause : DeclarationError} (h : next u root w = .failed cause) :
    run u root w = .error cause := by
  rw [run_eq, h]

def runWithin (u : CompilationUnit) (root : String) :
    Nat → Walk → Option (Except DeclarationError (List Declaration))
  | 0, _ => none
  | n + 1, w =>
      match next u root w with
      | .finished found => some (.ok found)
      | .failed cause => some (.error cause)
      | .step v => runWithin u root n v

theorem run_eq_of_runWithin {n : Nat} {r : Except DeclarationError (List Declaration)}
    (h : runWithin u root n w = some r) : run u root w = r := by
  induction n generalizing w with
  | zero => cases h
  | succ n ih =>
      rw [run_eq]
      unfold runWithin at h
      split
      · simp_all
      · simp_all
      · simp_all

theorem run_ends {P : Walk → Prop} (keeps : ∀ w v, P w → next u root w = .step v → P v)
    (w : Walk) (hw : P w) :
    ∃ v, P v ∧ ((∃ found, next u root v = .finished found ∧ run u root w = .ok found) ∨
      ∃ cause, next u root v = .failed cause ∧ run u root w = .error cause) := by
  fun_induction run u root w with
  | case1 w found hn => exact ⟨w, hw, .inl ⟨found, hn, rfl⟩⟩
  | case2 w cause hn => exact ⟨w, hw, .inr ⟨cause, hn, rfl⟩⟩
  | case3 w v hn ih => exact ih (keeps w v hw hn)

structure Coherent (u : CompilationUnit) (d : Declaration) (w : Walk) : Prop where
  taken : w.found.map Declaration.name = w.seen.reverse
  distinct : w.seen.Nodup
  foreign : d.name ∉ w.seen
  located : ∀ e ∈ w.found, u.lookup e.name = .ok (some e)
  reached : ∀ name ∈ w.seen, u.Ancestor d name
  framed : ∀ frame ∈ w.stack, ∃ e ∈ d :: w.found, frame.owner = e.name ∧
    ∀ name ∈ frame.pending, name ∈ e.supertypes
  -- No direct supertype of what was met is forgotten; an empty stack makes this completeness.
  covered : ∀ e ∈ d :: w.found, ∀ name ∈ e.supertypes,
    name ∈ w.seen ∨ ∃ frame ∈ w.stack, name ∈ frame.pending

namespace Coherent

variable {d : Declaration}

theorem start (u : CompilationUnit) (d : Declaration) : Coherent u d (Walk.start d) where
  taken := rfl
  distinct := .nil
  foreign := by simp [Walk.start]
  located := by simp [Walk.start]
  reached := by simp [Walk.start]
  framed := by simp [Walk.start]
  covered := by simp [Walk.start]

theorem mem_seen_iff (c : Coherent u d w) {name : String} :
    name ∈ w.seen ↔ ∃ e ∈ w.found, e.name = name := by
  rw [← List.mem_reverse, ← c.taken, List.mem_map]

theorem ancestor_of_pending (c : Coherent u d w) {frame : Frame} (hf : frame ∈ w.stack)
    {name : String} (hn : name ∈ frame.pending) : u.Ancestor d name := by
  obtain ⟨e, he, -, hsub⟩ := c.framed frame hf
  rcases List.mem_cons.1 he with rfl | he
  · exact .direct (hsub name hn)
  · have hseen : e.name ∈ w.seen := c.mem_seen_iff.2 ⟨e, he, rfl⟩
    exact .beyond (c.reached _ hseen) (c.located e he) (hsub name hn)

theorem close (c : Coherent u d w) {owner : String} {frames : List Frame}
    (hs : w.stack = ⟨owner, []⟩ :: frames) : Coherent u d { w with stack := frames } where
  taken := c.taken
  distinct := c.distinct
  foreign := c.foreign
  located := c.located
  reached := c.reached
  framed frame hf := c.framed frame (by rw [hs]; exact List.mem_cons_of_mem _ hf)
  covered e he name hn := by
    rcases c.covered e he name hn with hseen | ⟨frame, hf, hp⟩
    · exact .inl hseen
    · rw [hs] at hf
      rcases List.mem_cons.1 hf with rfl | hf
      · cases hp
      · exact .inr ⟨frame, hf, hp⟩

theorem framed_rest (c : Coherent u d w) {owner name : String} {pending : List String}
    {frames : List Frame} (hs : w.stack = ⟨owner, name :: pending⟩ :: frames) :
    ∀ frame ∈ ⟨owner, pending⟩ :: frames, ∃ e ∈ d :: w.found, frame.owner = e.name ∧
      ∀ n ∈ frame.pending, n ∈ e.supertypes := by
  intro frame hf
  rcases List.mem_cons.1 hf with rfl | hf
  · obtain ⟨e, he, ho, hsub⟩ := c.framed ⟨owner, name :: pending⟩ (by simp [hs])
    exact ⟨e, he, ho, fun n hn => hsub n (List.mem_cons_of_mem _ hn)⟩
  · exact c.framed frame (by rw [hs]; exact List.mem_cons_of_mem _ hf)

theorem covered_rest (c : Coherent u d w) {owner name : String} {pending : List String}
    {frames : List Frame} (hs : w.stack = ⟨owner, name :: pending⟩ :: frames) :
    ∀ e ∈ d :: w.found, ∀ n ∈ e.supertypes,
      n = name ∨ n ∈ w.seen ∨ ∃ frame ∈ ⟨owner, pending⟩ :: frames, n ∈ frame.pending := by
  intro e he n hn
  rcases c.covered e he n hn with hseen | ⟨frame, hf, hp⟩
  · exact .inr (.inl hseen)
  · rw [hs] at hf
    rcases List.mem_cons.1 hf with rfl | hf
    · rcases List.mem_cons.1 hp with rfl | hp
      · exact .inl rfl
      · exact .inr (.inr ⟨_, List.mem_cons_self, hp⟩)
    · exact .inr (.inr ⟨frame, List.mem_cons_of_mem _ hf, hp⟩)

theorem skip (c : Coherent u d w) {owner name : String} {pending : List String}
    {frames : List Frame} (hs : w.stack = ⟨owner, name :: pending⟩ :: frames)
    (hseen : name ∈ w.seen) : Coherent u d { w with stack := ⟨owner, pending⟩ :: frames } where
  taken := c.taken
  distinct := c.distinct
  foreign := c.foreign
  located := c.located
  reached := c.reached
  framed := c.framed_rest hs
  covered e he n hn := by
    rcases c.covered_rest hs e he n hn with rfl | hrest
    · exact .inl hseen
    · exact hrest

theorem take (c : Coherent u d w) {owner name : String} {pending : List String}
    {frames : List Frame} {e : Declaration} (hs : w.stack = ⟨owner, name :: pending⟩ :: frames)
    (hroot : name ≠ d.name) (hseen : name ∉ w.seen) (he : u.lookup name = .ok (some e)) :
    Coherent u d
      { stack := ⟨e.name, e.supertypes⟩ :: ⟨owner, pending⟩ :: frames
        seen := name :: w.seen
        found := w.found ++ [e] } := by
  have hname : e.name = name := CompilationUnit.lookup_name he
  have hanc : u.Ancestor d name :=
    c.ancestor_of_pending (by rw [hs]; exact List.mem_cons_self) List.mem_cons_self
  refine ⟨?_, List.nodup_cons.2 ⟨hseen, c.distinct⟩, ?_, ?_, ?_, ?_, ?_⟩
  · simp [c.taken, hname]
  · simp [c.foreign, Ne.symm hroot]
  · intro x hx
    rcases List.mem_append.1 hx with hx | hx
    · exact c.located x hx
    · rw [List.mem_singleton.1 hx, hname, he]
  · intro n hn
    rcases List.mem_cons.1 hn with rfl | hn
    · exact hanc
    · exact c.reached n hn
  · intro frame hf
    rcases List.mem_cons.1 hf with rfl | hf
    · exact ⟨e, by simp, rfl, fun n hn => hn⟩
    · obtain ⟨x, hx, hrest⟩ := c.framed_rest hs frame hf
      rw [← List.cons_append]
      exact ⟨x, List.mem_append_left _ hx, hrest⟩
  · intro x hx n hn
    rw [← List.cons_append] at hx
    rcases List.mem_append.1 hx with hx | hx
    · rcases c.covered_rest hs x hx n hn with rfl | hn | ⟨frame, hf, hp⟩
      · exact .inl List.mem_cons_self
      · exact .inl (List.mem_cons_of_mem _ hn)
      · exact .inr ⟨frame, List.mem_cons_of_mem _ hf, hp⟩
    · rw [List.mem_singleton.1 hx] at hn
      exact .inr ⟨_, List.mem_cons_self, hn⟩

theorem step (c : Coherent u d w) (h : next u d.name w = .step v) : Coherent u d v := by
  rcases next_step_cases h with ⟨owner, frames, hs, rfl⟩ |
    ⟨owner, name, pending, frames, hs, hseen, rfl⟩ |
    ⟨owner, name, pending, frames, e, hs, hroot, hseen, he, rfl⟩
  · exact c.close hs
  · exact c.skip hs hseen
  · exact c.take hs hroot hseen he

theorem ancestor_iff_of_done (c : Coherent u d w) (done : w.stack = []) {name : String} :
    u.Ancestor d name ↔ name ∈ w.found.map Declaration.name := by
  have hcovered : ∀ e ∈ d :: w.found, ∀ n ∈ e.supertypes, n ∈ w.seen := by
    intro e he n hn
    rcases c.covered e he n hn with hseen | ⟨frame, hf, -⟩
    · exact hseen
    · rw [done] at hf
      cases hf
  rw [c.taken, List.mem_reverse]
  constructor
  · intro h
    refine h.mem_of_closed (hcovered d List.mem_cons_self) ?_
    intro middle hm e he n hn
    obtain ⟨x, hx, hname⟩ := c.mem_seen_iff.1 hm
    have hxe : x = e := CompilationUnit.lookup_unique (hname ▸ c.located x hx) he
    exact hcovered e (hxe ▸ List.mem_cons_of_mem _ hx) n hn
  · exact c.reached name

end Coherent

end Walk

namespace CompilationUnit

variable {u : CompilationUnit} {d : Declaration}

structure ListsAbove (u : CompilationUnit) (d : Declaration) (found : List Declaration) : Prop where
  names_iff : ∀ name, u.Ancestor d name ↔ name ∈ found.map Declaration.name
  located : ∀ e ∈ found, u.lookup e.name = .ok (some e)
  distinct : (found.map Declaration.name).Nodup
  foreign : d.name ∉ found.map Declaration.name

theorem ListsAbove.mem_iff {found : List Declaration} (l : u.ListsAbove d found)
    (e : Declaration) : e ∈ found ↔ u.Above d e := by
  constructor
  · intro he
    exact ⟨e.name, (l.names_iff _).2 (List.mem_map_of_mem he), l.located e he⟩
  · rintro ⟨name, hanc, he⟩
    obtain ⟨x, hx, hname⟩ := List.mem_map.1 ((l.names_iff name).1 hanc)
    have hxe : x = e := lookup_unique (hname ▸ l.located x hx) he
    exact hxe ▸ hx

theorem ListsAbove.soundHierarchy {found : List Declaration} (l : u.ListsAbove d found) :
    u.SoundHierarchy d where
  known name hanc := by
    obtain ⟨e, he, hname⟩ := List.mem_map.1 ((l.names_iff name).1 hanc)
    exact ⟨e, hname ▸ l.located e he⟩
  proper hanc := l.foreign ((l.names_iff _).1 hanc)

theorem transitiveSupertypes_eq_of_runWithin (n : Nat)
    {r : Except DeclarationError (List Declaration)}
    (h : Walk.runWithin u d.name n (Walk.start d) = some r) : u.transitiveSupertypes d = r :=
  Walk.run_eq_of_runWithin h

theorem transitiveSupertypes_ends (u : CompilationUnit) (d : Declaration) :
    ∃ v, Walk.Coherent u d v ∧
      ((∃ found, Walk.next u d.name v = .finished found ∧ u.transitiveSupertypes d = .ok found) ∨
        ∃ cause, Walk.next u d.name v = .failed cause ∧ u.transitiveSupertypes d = .error cause) :=
  Walk.run_ends (fun _ _ c h => c.step h) _ (.start u d)

theorem listsAbove_of_ok {found : List Declaration} (h : u.transitiveSupertypes d = .ok found) :
    u.ListsAbove d found := by
  obtain ⟨v, c, ⟨found', hn, hr⟩ | ⟨cause, -, hr⟩⟩ := u.transitiveSupertypes_ends d
  · rw [h] at hr
    cases hr
    obtain ⟨done, rfl⟩ := Walk.next_finished hn
    refine ⟨fun name => c.ancestor_iff_of_done done, c.located, ?_, ?_⟩
    · rw [c.taken]
      exact (List.reverse_perm _).nodup_iff.2 c.distinct
    · rw [c.taken, List.mem_reverse]
      exact c.foreign
  · rw [h] at hr
    cases hr

def Dangling (u : CompilationUnit) (d : Declaration) (owner listed : String) : Prop :=
  u.lookup listed = .ok none ∧ ∃ e, (e = d ∨ u.Above d e) ∧ owner = e.name ∧ listed ∈ e.supertypes

theorem Dangling.ancestor {owner listed : String} (h : u.Dangling d owner listed) :
    u.Ancestor d listed := by
  obtain ⟨-, e, rfl | ⟨name, hanc, he⟩, -, hl⟩ := h
  · exact .direct hl
  · exact .beyond hanc he hl

theorem transitiveSupertypes_error_cases (distinct : u.names.Nodup) {cause : DeclarationError}
    (h : u.transitiveSupertypes d = .error cause) :
    (cause = .ownSupertype d.name ∧ u.Ancestor d d.name) ∨
      ∃ owner listed, cause = .unknownSupertype owner listed ∧ u.Dangling d owner listed := by
  obtain ⟨v, c, ⟨found, -, hr⟩ | ⟨cause', hn, hr⟩⟩ := u.transitiveSupertypes_ends d
  · rw [h] at hr
    cases hr
  · rw [h] at hr
    cases hr
    obtain ⟨owner, name, pending, frames, hs, hcase⟩ := Walk.next_failed_cases distinct hn
    have hframe : ⟨owner, name :: pending⟩ ∈ v.stack := by rw [hs]; exact List.mem_cons_self
    rcases hcase with ⟨rfl, rfl⟩ | ⟨hl, rfl⟩
    · exact .inl ⟨rfl, c.ancestor_of_pending hframe List.mem_cons_self⟩
    · obtain ⟨e, he, ho, hsub⟩ := c.framed _ hframe
      refine .inr ⟨owner, name, rfl, hl, e, ?_, ho, hsub _ List.mem_cons_self⟩
      rcases List.mem_cons.1 he with rfl | he
      · exact .inl rfl
      · have hseen : e.name ∈ v.seen := c.mem_seen_iff.2 ⟨e, he, rfl⟩
        exact .inr ⟨e.name, c.reached _ hseen, c.located e he⟩

theorem transitiveSupertypes_ok_iff (distinct : u.names.Nodup) :
    (∃ found, u.transitiveSupertypes d = .ok found) ↔ u.SoundHierarchy d := by
  constructor
  · rintro ⟨found, h⟩
    exact (listsAbove_of_ok h).soundHierarchy
  · intro sound
    cases h : u.transitiveSupertypes d with
    | ok found => exact ⟨found, rfl⟩
    | error cause =>
        rcases transitiveSupertypes_error_cases distinct h with ⟨-, hown⟩ | ⟨owner, listed, -, hdang⟩
        · exact absurd hown sound.proper
        · obtain ⟨e, he⟩ := sound.known listed hdang.ancestor
          rw [hdang.1] at he
          cases he

theorem transitiveSupertypes_exact (u : CompilationUnit) (distinct : u.names.Nodup)
    (d : Declaration) :
    ((∃ found, u.transitiveSupertypes d = .ok found) ↔
      (∀ name, u.Ancestor d name → ∃ e, u.lookup name = .ok (some e)) ∧ ¬ u.Ancestor d d.name) ∧
    (∀ found, u.transitiveSupertypes d = .ok found →
      (∀ e, e ∈ found ↔ ∃ name, u.Ancestor d name ∧ u.lookup name = .ok (some e)) ∧
      (∀ name, u.Ancestor d name ↔ name ∈ found.map Declaration.name) ∧
      (found.map Declaration.name).Nodup ∧ ∀ e ∈ found, e.name ≠ d.name) ∧
    ∀ cause, u.transitiveSupertypes d = .error cause →
      (cause = .ownSupertype d.name ∧ u.Ancestor d d.name) ∨
      ∃ owner listed, cause = .unknownSupertype owner listed ∧ u.lookup listed = .ok none ∧
        ∃ e, (e = d ∨ ∃ name, u.Ancestor d name ∧ u.lookup name = .ok (some e)) ∧
          owner = e.name ∧ listed ∈ e.supertypes := by
  refine ⟨?_, ?_, ?_⟩
  · rw [transitiveSupertypes_ok_iff distinct]
    exact ⟨fun sound => ⟨sound.known, sound.proper⟩, fun ⟨known, proper⟩ => ⟨known, proper⟩⟩
  · intro found h
    have l := listsAbove_of_ok h
    refine ⟨l.mem_iff, l.names_iff, l.distinct, ?_⟩
    intro e he hname
    exact l.foreign (hname ▸ List.mem_map_of_mem he)
  · intro cause h
    exact transitiveSupertypes_error_cases distinct h

def tangledUnit : CompilationUnit :=
  ofLists
    [{ name := "Leaf", supertypes := ["Left", "Right", "Left"] },
      { name := "Left", supertypes := ["Right"] }]
    [{ name := "Right", supertypes := ["Left"] }]

theorem transitiveSupertypes_exact_tangled :
    tangledUnit.names.Nodup ∧
      tangledUnit.Ancestor { name := "Left", supertypes := ["Right"] } "Left" ∧
      ∃ found,
        tangledUnit.transitiveSupertypes
            { name := "Leaf", supertypes := ["Left", "Right", "Left"] } = .ok found ∧
          (found.map Declaration.name).Nodup ∧
          ∀ name, name ∈ found.map Declaration.name ↔ name = "Left" ∨ name = "Right" := by
  have distinct : tangledUnit.names.Nodup := by decide
  have hleft : tangledUnit.lookup "Left" = .ok (some { name := "Left", supertypes := ["Right"] }) :=
    rfl
  have hright :
      tangledUnit.lookup "Right" = .ok (some { name := "Right", supertypes := ["Left"] }) := rfl
  have hanc : ∀ name, tangledUnit.Ancestor
      { name := "Leaf", supertypes := ["Left", "Right", "Left"] } name ↔
        name = "Left" ∨ name = "Right" := by
    intro name
    constructor
    · intro h
      have hmem : name ∈ ["Left", "Right"] := by
        refine h.mem_of_closed (by simp) ?_
        intro middle hm e he
        rcases List.mem_cons.1 hm with rfl | hm
        · rw [hleft] at he
          cases he
          simp
        · rw [List.mem_singleton.1 hm, hright] at he
          cases he
          simp
      simpa using hmem
    · rintro (rfl | rfl)
      · exact .direct (by simp)
      · exact .direct (by simp)
  obtain ⟨hok, hfound, -⟩ := transitiveSupertypes_exact tangledUnit distinct
    { name := "Leaf", supertypes := ["Left", "Right", "Left"] }
  obtain ⟨found, h⟩ := hok.2 ⟨by
    intro name hn
    rcases (hanc name).1 hn with rfl | rfl
    · exact ⟨_, hleft⟩
    · exact ⟨_, hright⟩, fun hn => by simpa using (hanc _).1 hn⟩
  obtain ⟨-, hnames, hnodup, -⟩ := hfound found h
  exact ⟨distinct, .beyond (.direct List.mem_cons_self) hright List.mem_cons_self, found, h, hnodup,
    fun name => (hnames name).symm.trans (hanc name)⟩

end CompilationUnit

end ActionWiring
