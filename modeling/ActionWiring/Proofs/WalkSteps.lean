import Mathlib.Algebra.Ring.Nat
import Mathlib.Data.List.Dedup
import Mathlib.Data.List.Perm.Subperm
import ActionWiring.Proofs.SupertypeWalk

namespace ActionWiring

namespace Walk

variable {u : CompilationUnit} {root : String} {d e : Declaration} {w v : Walk} {frame : Frame}
  {frames : List Frame} {m n : Nat}

def after (u : CompilationUnit) (root : String) : Nat → Walk → Option Walk
  | 0, w => some w
  | n + 1, w =>
      match next u root w with
      | .step v => after u root n v
      | _ => none

theorem after_succ_of_step {x : Walk} (h : next u root w = .step x) :
    after u root (n + 1) w = after u root n x := by
  rw [after, h]

theorem after_succ_eq_some_iff :
    after u root (n + 1) w = some v ↔
      ∃ x, next u root w = .step x ∧ after u root n x = some v := by
  rw [after]
  cases next u root w with
  | finished found => simp
  | failed cause => simp
  | step x => simp

theorem after_add : after u root (m + n) w = (after u root m w).bind (after u root n) := by
  induction m generalizing w with
  | zero => rw [Nat.zero_add, after, Option.bind_some]
  | succ m ih =>
      rw [Nat.succ_add, after, after]
      cases next u root w with
      | finished found => rfl
      | failed cause => rfl
      | step x => exact ih

theorem after_keeps {P : Walk → Prop} (keeps : ∀ w v, P w → next u root w = .step v → P v)
    (hw : P w) (h : after u root n w = some v) : P v := by
  induction n generalizing w with
  | zero =>
      cases h
      exact hw
  | succ n ih =>
      obtain ⟨x, hx, hv⟩ := after_succ_eq_some_iff.1 h
      exact ih (keeps w x hw hx) hv

def unopened (seen : List String) (ds : List Declaration) : Nat :=
  (ds.map fun e => if e.name ∈ seen then 0 else e.supertypes.length + 1).sum

theorem unopened_cons_le (name : String) (seen : List String) (ds : List Declaration) :
    unopened (name :: seen) ds ≤ unopened seen ds := by
  induction ds with
  | nil => exact Nat.le_refl _
  | cons e ds ih =>
      simp only [unopened, List.map_cons, List.sum_cons] at ih ⊢
      refine Nat.add_le_add ?_ ih
      by_cases h : e.name ∈ seen
      · rw [if_pos (List.mem_cons_of_mem _ h)]
        exact Nat.zero_le _
      · rw [if_neg h]
        split
        · exact Nat.zero_le _
        · exact Nat.le_refl _

theorem unopened_open {seen : List String} {ds : List Declaration} (he : e ∈ ds)
    (hseen : e.name ∉ seen) :
    unopened (e.name :: seen) ds + (e.supertypes.length + 1) ≤ unopened seen ds := by
  obtain ⟨before, behind, rfl⟩ := List.append_of_mem he
  have hbefore := unopened_cons_le e.name seen before
  have hbehind := unopened_cons_le e.name seen behind
  simp only [unopened, List.map_append, List.map_cons, List.sum_append, List.sum_cons,
    List.mem_cons_self, if_true, if_neg hseen] at hbefore hbehind ⊢
  omega

def work (u : CompilationUnit) (w : Walk) : Nat := w.remaining + unopened w.seen u.visible

theorem next_work (h : next u root w = .step v) : v.work u + 1 ≤ w.work u := by
  rcases next_step_cases h with ⟨owner, frames, hs, rfl⟩ |
    ⟨owner, name, pending, frames, hs, -, rfl⟩ |
    ⟨owner, name, pending, frames, e, hs, -, hseen, he, rfl⟩
  · simp only [work, remaining, hs, List.foldr_cons, List.length_nil]
    omega
  · simp only [work, remaining, hs, List.foldr_cons, List.length_cons]
    omega
  · obtain ⟨hmem, rfl⟩ := CompilationUnit.mem_of_lookup_eq_some he
    have hopen := unopened_open hmem hseen
    simp only [work, remaining, hs, List.foldr_cons, List.length_cons]
    omega

theorem ends_after (u : CompilationUnit) (root : String) (w : Walk) :
    ∃ n ≤ w.work u, ∃ v, after u root n w = some v ∧
      ((∃ found, next u root v = .finished found ∧ run u root w = .ok found) ∨
        ∃ cause, next u root v = .failed cause ∧ run u root w = .error cause) := by
  fun_induction run u root w with
  | case1 w found hn => exact ⟨0, Nat.zero_le _, w, rfl, .inl ⟨found, hn, rfl⟩⟩
  | case2 w cause hn => exact ⟨0, Nat.zero_le _, w, rfl, .inr ⟨cause, hn, rfl⟩⟩
  | case3 w v hn ih =>
      obtain ⟨n, hle, x, hx, hend⟩ := ih
      have hless := next_work hn
      exact ⟨n + 1, by omega, x, (after_succ_of_step hn).trans hx, hend⟩

structure Stacked (u : CompilationUnit) (d : Declaration) (w : Walk) : Prop where
  coherent : Coherent u d w
  owners : (w.stack.map Frame.owner).Nodup
  suffixes : ∀ frame ∈ w.stack, ∃ e ∈ d :: w.found, frame.owner = e.name ∧
    frame.pending <:+ e.supertypes

structure Spent (d : Declaration) (frame : Frame) (w : Walk) : Prop where
  met : frame.owner = d.name ∨ frame.owner ∈ w.seen
  shorter : ∀ g ∈ w.stack, g.owner = frame.owner → g.pending.length < frame.pending.length

namespace Stacked

theorem start (u : CompilationUnit) (d : Declaration) : Stacked u d (Walk.start d) where
  coherent := .start u d
  owners := by simp [Walk.start]
  suffixes := by simp [Walk.start]

theorem met (s : Stacked u d w) (h : frame ∈ w.stack) :
    frame.owner = d.name ∨ frame.owner ∈ w.seen := by
  obtain ⟨e, he, howner, -⟩ := s.suffixes frame h
  rcases List.mem_cons.1 he with rfl | he
  · exact .inl howner
  · exact .inr (s.coherent.mem_seen_iff.2 ⟨e, he, howner.symm⟩)

theorem suffixes_rest (s : Stacked u d w) {owner name : String} {pending : List String}
    (hs : w.stack = ⟨owner, name :: pending⟩ :: frames) :
    ∀ frame ∈ ⟨owner, pending⟩ :: frames, ∃ e ∈ d :: w.found, frame.owner = e.name ∧
      frame.pending <:+ e.supertypes := by
  have hsuffixes := s.suffixes
  rw [hs, List.forall_mem_cons] at hsuffixes
  obtain ⟨⟨e, he, howner, hsub⟩, hframes⟩ := hsuffixes
  exact List.forall_mem_cons.2 ⟨⟨e, he, howner, (List.suffix_cons name pending).trans hsub⟩, hframes⟩

theorem step (s : Stacked u d w) (h : next u d.name w = .step v) : Stacked u d v := by
  have howners := s.owners
  rcases next_step_cases h with ⟨owner, frames, hs, rfl⟩ |
    ⟨owner, name, pending, frames, hs, -, rfl⟩ |
    ⟨owner, name, pending, frames, e, hs, hroot, hseen, he, rfl⟩
  · rw [hs] at howners
    refine ⟨s.coherent.step h, (List.nodup_cons.1 howners).2, fun frame hf => ?_⟩
    exact s.suffixes frame (hs ▸ List.mem_cons_of_mem _ hf)
  · rw [hs] at howners
    exact ⟨s.coherent.step h, howners, s.suffixes_rest hs⟩
  · rw [hs] at howners
    have hname : e.name = name := CompilationUnit.lookup_name he
    refine ⟨s.coherent.step h, List.nodup_cons.2 ⟨?_, howners⟩, List.forall_mem_cons.2 ⟨?_, ?_⟩⟩
    · intro hmem
      obtain ⟨frame, hframe, howner⟩ := List.mem_map.1 (show e.name ∈ w.stack.map Frame.owner by
        rw [hs]; exact hmem)
      rw [hname] at howner
      rcases s.met hframe with hmet | hmet
      · exact hroot (howner ▸ hmet)
      · exact hseen (howner ▸ hmet)
    · exact ⟨e, by simp, rfl, List.suffix_refl _⟩
    · intro frame hf
      obtain ⟨x, hx, hrest⟩ := s.suffixes_rest hs frame hf
      rw [← List.cons_append]
      exact ⟨x, List.mem_append_left _ hx, hrest⟩

theorem after (h : Walk.after u d.name n (Walk.start d) = some w) : Stacked u d w :=
  after_keeps (fun _ _ s hn => s.step hn) (.start u d) h

theorem spent (s : Stacked u d w) (hs : w.stack = frame :: frames)
    (h : next u d.name w = .step v) : Spent d frame v := by
  have hmet : frame.owner = d.name ∨ frame.owner ∈ w.seen :=
    s.met (by rw [hs]; exact List.mem_cons_self)
  have hothers : ∀ g ∈ frames, g.owner ≠ frame.owner := by
    have howners := s.owners
    rw [hs, List.map_cons, List.nodup_cons] at howners
    exact fun g hg heq => howners.1 (heq ▸ List.mem_map_of_mem hg)
  rcases next_step_cases h with ⟨owner, frames', hs', rfl⟩ |
    ⟨owner, name, pending, frames', hs', -, rfl⟩ |
    ⟨owner, name, pending, frames', e, hs', hroot, hseen, he, rfl⟩
  · rw [hs] at hs'
    cases hs'
    exact ⟨hmet, fun g hg heq => absurd heq (hothers g hg)⟩
  · rw [hs] at hs'
    cases hs'
    refine ⟨hmet, List.forall_mem_cons.2 ⟨fun _ => Nat.lt_succ_self _, ?_⟩⟩
    exact fun g hg heq => absurd heq (hothers g hg)
  · rw [hs] at hs'
    cases hs'
    refine ⟨hmet.imp_right (List.mem_cons_of_mem _), List.forall_mem_cons.2
      ⟨fun heq => ?_, List.forall_mem_cons.2 ⟨fun _ => Nat.lt_succ_self _, ?_⟩⟩⟩
    · rw [← heq, CompilationUnit.lookup_name he] at hmet
      exact absurd hmet (not_or.2 ⟨hroot, hseen⟩)
    · exact fun g hg heq => absurd heq (hothers g hg)

end Stacked

namespace Spent

theorem step (s : Spent d frame w) (h : next u d.name w = .step v) : Spent d frame v := by
  have hshorter := s.shorter
  rcases next_step_cases h with ⟨owner, frames, hs, rfl⟩ |
    ⟨owner, name, pending, frames, hs, -, rfl⟩ |
    ⟨owner, name, pending, frames, e, hs, hroot, hseen, he, rfl⟩
  · rw [hs, List.forall_mem_cons] at hshorter
    exact ⟨s.met, hshorter.2⟩
  · rw [hs, List.forall_mem_cons] at hshorter
    refine ⟨s.met, List.forall_mem_cons.2 ⟨fun heq => ?_, hshorter.2⟩⟩
    exact Nat.lt_of_succ_lt (hshorter.1 heq)
  · rw [hs, List.forall_mem_cons] at hshorter
    refine ⟨s.met.imp_right (List.mem_cons_of_mem _), List.forall_mem_cons.2
      ⟨fun heq => ?_, List.forall_mem_cons.2 ⟨fun heq => ?_, hshorter.2⟩⟩⟩
    · have hmet := s.met
      rw [← heq, CompilationUnit.lookup_name he] at hmet
      exact absurd hmet (not_or.2 ⟨hroot, hseen⟩)
    · exact Nat.lt_of_succ_lt (hshorter.1 heq)

theorem not_on_top (s : Spent d frame w) (hs : w.stack = frame :: frames) : False :=
  Nat.lt_irrefl _ (s.shorter frame (by rw [hs]; exact List.mem_cons_self) rfl)

end Spent

def Pops (u : CompilationUnit) (d : Declaration) (n : Nat) (frame : Frame) : Prop :=
  ∃ w frames, after u d.name n (start d) = some w ∧ w.stack = frame :: frames

def Opens (u : CompilationUnit) (d : Declaration) (n : Nat) (frame : Frame) : Prop :=
  ∃ w v frames, after u d.name n (start d) = some w ∧ next u d.name w = .step v ∧
    v.stack = frame :: frames ∧ frames.length = w.stack.length

theorem not_pops_again {k : Nat} (hm : Pops u d m frame) (hn : Pops u d (m + (k + 1)) frame) :
    False := by
  obtain ⟨w, frames, hw, hs⟩ := hm
  obtain ⟨v, frames', hv, hs'⟩ := hn
  rw [after_add, hw, Option.bind_some] at hv
  obtain ⟨x, hx, hv⟩ := after_succ_eq_some_iff.1 hv
  have hspent : Spent d frame v :=
    after_keeps (fun _ _ s hn => s.step hn) ((Stacked.after hw).spent hs hx) hv
  exact hspent.not_on_top hs'

theorem pops_once (hm : Pops u d m frame) (hn : Pops u d n frame) : m = n := by
  rcases Nat.lt_trichotomy m n with hlt | heq | hlt
  · obtain ⟨k, rfl⟩ := Nat.exists_eq_add_of_lt hlt
    exact (not_pops_again hm hn).elim
  · exact heq
  · obtain ⟨k, rfl⟩ := Nat.exists_eq_add_of_lt hlt
    exact (not_pops_again hn hm).elim

theorem Pops.indexed (h : Pops u d n frame) :
    ∃ e i, (e = d ∨ u.Above d e) ∧ i ≤ e.supertypes.length ∧
      frame = ⟨e.name, e.supertypes.drop i⟩ := by
  obtain ⟨w, frames, hw, hs⟩ := h
  have s := Stacked.after hw
  obtain ⟨e, he, howner, hsuffix⟩ := s.suffixes frame (by rw [hs]; exact List.mem_cons_self)
  refine ⟨e, e.supertypes.length - frame.pending.length, ?_, Nat.sub_le _ _, ?_⟩
  · refine (List.mem_cons.1 he).imp_right fun hfound => ?_
    have hseen : e.name ∈ w.seen := s.coherent.mem_seen_iff.2 ⟨e, hfound, rfl⟩
    exact ⟨e.name, s.coherent.reached _ hseen, s.coherent.located e hfound⟩
  · rw [← howner, ← List.suffix_iff_eq_drop.1 hsuffix]

theorem Opens.cases (h : Opens u d n frame) :
    ∃ e, u.Above d e ∧ e.name ≠ d.name ∧ frame = ⟨e.name, e.supertypes⟩ ∧ Pops u d (n + 1) frame := by
  obtain ⟨w, v, frames, hw, hn, hs, hlength⟩ := h
  have hpops : Pops u d (n + 1) frame := by
    refine ⟨v, frames, ?_, hs⟩
    rw [after_add, hw, Option.bind_some]
    exact after_succ_of_step hn
  rcases next_step_cases hn with ⟨owner, frames', hs', rfl⟩ |
    ⟨owner, name, pending, frames', hs', -, rfl⟩ |
    ⟨owner, name, pending, frames', e, hs', hroot, -, he, rfl⟩
  · rw [hs'] at hlength
    cases hs
    simp only [List.length_cons] at hlength
    omega
  · rw [hs'] at hlength
    cases hs
    simp only [List.length_cons] at hlength
    omega
  · cases hs
    have hanc : u.Ancestor d name := (Stacked.after hw).coherent.ancestor_of_pending
      (by rw [hs']; exact List.mem_cons_self) List.mem_cons_self
    exact ⟨e, ⟨name, hanc, he⟩, CompilationUnit.lookup_name he ▸ hroot, rfl, hpops⟩

theorem opens_once {f g : Frame} (hf : Opens u d m f) (hg : Opens u d n g)
    (same : f.owner = g.owner) : m = n := by
  obtain ⟨e, ⟨name, -, he⟩, -, rfl, hm⟩ := hf.cases
  obtain ⟨e', ⟨name', -, he'⟩, -, rfl, hn⟩ := hg.cases
  have hname : name = name' :=
    (CompilationUnit.lookup_name he).symm.trans (same.trans (CompilationUnit.lookup_name he'))
  rw [← hname] at he'
  cases CompilationUnit.lookup_unique he he'
  exact Nat.succ.inj (pops_once hm hn)

end Walk

namespace CompilationUnit

variable {u : CompilationUnit} {d : Declaration} {found : List Declaration}

theorem ListsAbove.length_le (l : u.ListsAbove d found) : found.length ≤ u.names.dedup.length := by
  rw [← List.length_map Declaration.name]
  refine (List.subperm_of_subset l.distinct fun name hname => ?_).length_le
  obtain ⟨e, he, rfl⟩ := List.mem_map.1 hname
  exact List.mem_dedup.2 (List.mem_map_of_mem (mem_of_lookup_eq_some (l.located e he)).1)

-- The walk ends whatever the unit holds. A frame is a declaration with an index into its supertypes, and
-- step by step the frames on top of the stack are all different.
theorem walk_bounded (u : CompilationUnit) (d : Declaration) :
    (∃ n ≤ d.supertypes.length + 1 + (u.visible.map fun e => e.supertypes.length + 1).sum,
      ∃ w, Walk.after u d.name n (Walk.start d) = some w ∧
        ((∃ found, Walk.next u d.name w = .finished found ∧ u.transitiveSupertypes d = .ok found) ∨
          ∃ cause, Walk.next u d.name w = .failed cause ∧
            u.transitiveSupertypes d = .error cause)) ∧
    (∀ n frame, Walk.Opens u d n frame →
      ∃ e, u.Above d e ∧ e.name ≠ d.name ∧ frame = ⟨e.name, e.supertypes⟩) ∧
    (∀ m n f g, Walk.Opens u d m f → Walk.Opens u d n g → f.owner = g.owner → m = n) ∧
    (∀ n frame, Walk.Pops u d n frame →
      ∃ e i, (e = d ∨ u.Above d e) ∧ i ≤ e.supertypes.length ∧
        frame = ⟨e.name, e.supertypes.drop i⟩) ∧
    (∀ m n frame, Walk.Pops u d m frame → Walk.Pops u d n frame → m = n) ∧
    ∀ found, u.transitiveSupertypes d = .ok found → found.length ≤ u.names.dedup.length := by
  refine ⟨?_, ?_, fun _ _ _ _ => Walk.opens_once, fun _ _ => Walk.Pops.indexed,
    fun _ _ _ => Walk.pops_once, fun found h => (listsAbove_of_ok h).length_le⟩
  · have hwork : (Walk.start d).work u =
        d.supertypes.length + 1 + (u.visible.map fun e => e.supertypes.length + 1).sum := by
      simp [Walk.work, Walk.start, Walk.remaining, Walk.unopened]
    exact hwork ▸ Walk.ends_after u d.name (Walk.start d)
  · intro n frame h
    obtain ⟨e, habove, hname, hframe, -⟩ := h.cases
    exact ⟨e, habove, hname, hframe⟩

def tangledLeaf : Declaration where
  name := "Leaf"
  supertypes := ["Left", "Right", "Left"]

theorem walk_bounded_tangled :
    Walk.Opens tangledUnit tangledLeaf 0 ⟨"Left", ["Right"]⟩ ∧
      (∀ n, Walk.Opens tangledUnit tangledLeaf n ⟨"Left", ["Right"]⟩ → n = 0) ∧
      Walk.Pops tangledUnit tangledLeaf 5 ⟨"Leaf", ["Right", "Left"]⟩ ∧
      (∀ n, Walk.Pops tangledUnit tangledLeaf n ⟨"Leaf", ["Right", "Left"]⟩ → n = 5) ∧
      ∀ found, tangledUnit.transitiveSupertypes tangledLeaf = .ok found → found.length ≤ 3 := by
  obtain ⟨-, -, hopens, -, hpops, hfound⟩ := walk_bounded tangledUnit tangledLeaf
  have hopen : Walk.Opens tangledUnit tangledLeaf 0 ⟨"Left", ["Right"]⟩ :=
    ⟨_, _, _, rfl, rfl, rfl, rfl⟩
  have hpop : Walk.Pops tangledUnit tangledLeaf 5 ⟨"Leaf", ["Right", "Left"]⟩ :=
    ⟨_, _, rfl, rfl⟩
  exact ⟨hopen, fun n h => hopens n 0 _ _ h hopen rfl, hpop, fun n h => hpops n 5 _ h hpop,
    fun found h => hfound found h⟩

end CompilationUnit

end ActionWiring
