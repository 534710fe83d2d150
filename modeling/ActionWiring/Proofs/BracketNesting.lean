import Mathlib.Data.List.Basic

namespace ActionWiring

def Plain (text : String) : Prop := ∀ c ∈ text.toList, c ≠ '<' ∧ c ≠ '>' ∧ c ≠ ','

instance (text : String) : Decidable (Plain text) := List.decidableBAll _ text.toList

def Balanced (cs : List Char) : Prop :=
  cs.count '<' = cs.count '>' ∧ ∀ head, head <+: cs → head.count '>' ≤ head.count '<'

inductive Nests : Nat → List Char → Nat → Prop
  | nil (depth : Nat) : Nests depth [] depth
  | opening {depth after : Nat} {cs : List Char} :
      Nests (depth + 1) cs after → Nests depth ('<' :: cs) after
  | closing {depth after : Nat} {cs : List Char} :
      Nests depth cs after → Nests (depth + 1) ('>' :: cs) after
  | comma {depth after : Nat} {cs : List Char} :
      Nests (depth + 1) cs after → Nests (depth + 1) (',' :: cs) after
  | letter {depth after : Nat} {c : Char} {cs : List Char} :
      c ≠ '<' ∧ c ≠ '>' ∧ c ≠ ',' → Nests depth cs after → Nests depth (c :: cs) after

def Enclosed (text : String) : Prop := Nests 0 text.toList 0

namespace Nests

variable {depth middle after : Nat} {cs ds : List Char}

theorem append (h : Nests depth cs middle) (h' : Nests middle ds after) :
    Nests depth (cs ++ ds) after := by
  induction h with
  | nil depth => exact h'
  | opening _ ih => exact .opening (ih h')
  | closing _ ih => exact .closing (ih h')
  | comma _ ih => exact .comma (ih h')
  | letter hc _ ih => exact .letter hc (ih h')

theorem deeper (h : Nests depth cs after) : Nests (depth + 1) cs (after + 1) := by
  induction h with
  | nil depth => exact .nil (depth + 1)
  | opening _ ih => exact .opening ih
  | closing _ ih => exact .closing ih
  | comma _ ih => exact .comma ih
  | letter hc _ ih => exact .letter hc ih

theorem of_letters (depth : Nat) (h : ∀ c ∈ cs, c ≠ '<' ∧ c ≠ '>' ∧ c ≠ ',') :
    Nests depth cs depth := by
  induction cs with
  | nil => exact .nil depth
  | cons c cs ih =>
      rw [List.forall_mem_cons] at h
      exact .letter h.1 (ih h.2)

theorem count (h : Nests depth cs after) : depth + cs.count '<' = after + cs.count '>' := by
  induction h with
  | nil depth => rfl
  | opening _ ih =>
      simp only [List.count_cons_self, List.count_cons_of_ne, ne_eq, Char.reduceEq,
        not_false_eq_true]
      omega
  | closing _ ih =>
      simp only [List.count_cons_self, List.count_cons_of_ne, ne_eq, Char.reduceEq,
        not_false_eq_true]
      omega
  | comma _ ih =>
      simp only [List.count_cons_of_ne, ne_eq, Char.reduceEq, not_false_eq_true]
      exact ih
  | letter hc _ ih => rw [List.count_cons_of_ne hc.1, List.count_cons_of_ne hc.2.1, ih]

theorem of_append {head rest : List Char} (h : Nests depth (head ++ rest) after) :
    ∃ middle, Nests depth head middle := by
  induction head generalizing depth with
  | nil => exact ⟨depth, .nil depth⟩
  | cons c head ih =>
      cases h with
      | opening h =>
          obtain ⟨middle, hmiddle⟩ := ih h
          exact ⟨middle, .opening hmiddle⟩
      | closing h =>
          obtain ⟨middle, hmiddle⟩ := ih h
          exact ⟨middle, .closing hmiddle⟩
      | comma h =>
          obtain ⟨middle, hmiddle⟩ := ih h
          exact ⟨middle, .comma hmiddle⟩
      | letter hc h =>
          obtain ⟨middle, hmiddle⟩ := ih h
          exact ⟨middle, .letter hc hmiddle⟩

theorem balanced (h : Nests 0 cs 0) : Balanced cs := by
  have hcount := h.count
  refine ⟨by omega, ?_⟩
  rintro head ⟨rest, rfl⟩
  obtain ⟨middle, hmiddle⟩ := h.of_append
  have hhead := hmiddle.count
  omega

end Nests

def depthAfter (depth : Nat) (c : Char) : Nat :=
  if c = '<' then depth + 1 else if c = '>' then depth - 1 else depth

def outerPieces : Nat → List Char → List (List Char)
  | _, [] => [[]]
  | depth, c :: cs =>
      if c = ',' ∧ depth = 0 then [] :: outerPieces depth cs
      else (outerPieces (depthAfter depth c) cs).modifyHead (c :: ·)

def splitOutside (text : String) : List String := (outerPieces 0 text.toList).map String.ofList

theorem outerPieces_comma (cs : List Char) :
    outerPieces 0 (',' :: cs) = [] :: outerPieces 0 cs := by
  rw [outerPieces, if_pos ⟨rfl, rfl⟩]

theorem outerPieces_step {depth middle after : Nat} {c : Char} {cs rest : List Char}
    (h : ¬ (c = ',' ∧ depth = 0)) (hdepth : depthAfter depth c = middle)
    (ih : outerPieces middle (cs ++ rest) = (outerPieces after rest).modifyHead (cs ++ ·)) :
    outerPieces depth (c :: cs ++ rest) = (outerPieces after rest).modifyHead (c :: cs ++ ·) := by
  rw [List.cons_append, outerPieces, if_neg h, hdepth, ih, List.modifyHead_modifyHead]
  rfl

theorem Nests.outerPieces_append {depth after : Nat} {cs : List Char} (h : Nests depth cs after)
    (rest : List Char) :
    outerPieces depth (cs ++ rest) = (outerPieces after rest).modifyHead (cs ++ ·) := by
  induction h with
  | nil depth => exact (congrFun List.modifyHead_id (outerPieces depth rest)).symm
  | opening _ ih => exact outerPieces_step (by simp) rfl ih
  | closing _ ih => exact outerPieces_step (by simp) rfl ih
  | comma _ ih => exact outerPieces_step (by simp) rfl ih
  | letter hc _ ih =>
      refine outerPieces_step (fun h => hc.2.2 h.1) ?_ ih
      rw [depthAfter, if_neg hc.1, if_neg hc.2.1]

theorem outerPieces_intercalate {pieces : List (List Char)} (hne : pieces ≠ [])
    (h : ∀ piece ∈ pieces, Nests 0 piece 0) :
    outerPieces 0 ([','].intercalate pieces) = pieces := by
  induction pieces with
  | nil => exact absurd rfl hne
  | cons piece pieces ih =>
      rw [List.forall_mem_cons] at h
      cases pieces with
      | nil => simpa [outerPieces] using h.1.outerPieces_append []
      | cons next pieces =>
          rw [List.intercalate_cons_cons, List.append_assoc, List.singleton_append,
            h.1.outerPieces_append, outerPieces_comma, ih (List.cons_ne_nil _ _) h.2]
          simp

theorem nests_intercalate {pieces : List (List Char)} (h : ∀ piece ∈ pieces, Nests 0 piece 0) :
    Nests 1 ([','].intercalate pieces) 1 := by
  induction pieces with
  | nil => exact .nil 1
  | cons piece pieces ih =>
      rw [List.forall_mem_cons] at h
      cases pieces with
      | nil => simpa using h.1.deeper
      | cons next pieces =>
          rw [List.intercalate_cons_cons, List.append_assoc, List.singleton_append]
          exact h.1.deeper.append (.comma (ih h.2))

theorem splitOutside_intercalate {texts : List String} (hne : texts ≠ [])
    (h : ∀ text ∈ texts, Enclosed text) : splitOutside (String.intercalate "," texts) = texts := by
  have hpieces : ∀ piece ∈ texts.map String.toList, Nests 0 piece 0 := List.forall_mem_map.2 h
  have hcomma : ",".toList = [','] := rfl
  rw [splitOutside, String.toList_intercalate, hcomma,
    outerPieces_intercalate (by simpa using hne) hpieces]
  simp [Function.comp_def]

end ActionWiring
