import Mathlib.Data.List.Chain
import ActionWiring.Proofs.LineReading

namespace ActionWiring

structure Firm (body : String) : Prop where
  oneLine : OneLine body
  ne_empty : body ≠ ""
  trimmed : body.toList.getLast? ≠ some ' '

instance (body : String) : Decidable (Firm body) :=
  decidable_of_iff (OneLine body ∧ body ≠ "" ∧ body.toList.getLast? ≠ some ' ')
    ⟨fun h => ⟨h.1, h.2.1, h.2.2⟩, fun h => ⟨h.oneLine, h.ne_empty, h.trimmed⟩⟩

theorem firm_append {front back : String} (hfront : OneLine front) (hback : Firm back) :
    Firm (front ++ back) where
  oneLine := oneLine_append.2 ⟨hfront, hback.oneLine⟩
  ne_empty := by simp [hback.ne_empty]
  trimmed := by
    have hne : back.toList ≠ [] := by simpa using hback.ne_empty
    rw [String.toList_append, List.getLast?_append_of_ne_nil _ hne]
    exact hback.trimmed

theorem Line.firm_content {body : String} (unit depth : Nat) (h : Firm body) :
    Firm ((Line.text depth body).content unit) :=
  firm_append (oneLine_spaces _) h

inductive Tidy : List Line → Prop
  | last {depth : Nat} {body : String} : Firm body → Tidy [.text depth body]
  | next {depth : Nat} {body : String} {lines : List Line} : Firm body → Tidy lines →
      Tidy (.text depth body :: lines)
  | gap {depth : Nat} {body : String} {lines : List Line} : Firm body → Tidy lines →
      Tidy (.text depth body :: .blank :: lines)

namespace Tidy

variable {left right : List Line}

theorem append (hleft : Tidy left) (hright : Tidy right) : Tidy (left ++ right) := by
  induction hleft with
  | last hbody => exact .next hbody hright
  | next hbody _ ih => exact .next hbody ih
  | gap hbody _ ih => exact .gap hbody ih

theorem append_gap (hleft : Tidy left) (hright : Tidy right) : Tidy (left ++ .blank :: right) := by
  induction hleft with
  | last hbody => exact .gap hbody hright
  | next hbody _ ih => exact .next hbody ih
  | gap hbody _ ih => exact .gap hbody ih

theorem texts {ι : Type} {depth : Nat} {items : List ι} {body : ι → String} (hne : items ≠ [])
    (hfirm : ∀ i ∈ items, Firm (body i)) : Tidy (items.map fun i => .text depth (body i)) := by
  induction items with
  | nil => exact absurd rfl hne
  | cons i items ih =>
      obtain ⟨hi, hitems⟩ := List.forall_mem_cons.1 hfirm
      cases items with
      | nil => exact .last hi
      | cons next items => exact .next hi (ih (List.cons_ne_nil _ _) hitems)

theorem texts_append {ι : Type} {depth : Nat} {items : List ι} {body : ι → String}
    (hfirm : ∀ i ∈ items, Firm (body i)) (hright : Tidy right) :
    Tidy ((items.map fun i => .text depth (body i)) ++ right) := by
  cases items with
  | nil => simpa using hright
  | cons i items => exact (texts (List.cons_ne_nil _ _) hfirm).append hright

theorem intercalate {blocks : List (List Line)} (hne : blocks ≠ [])
    (h : ∀ block ∈ blocks, Tidy block) : Tidy ([Line.blank].intercalate blocks) := by
  induction blocks with
  | nil => exact absurd rfl hne
  | cons block blocks ih =>
      obtain ⟨hblock, hblocks⟩ := List.forall_mem_cons.1 h
      cases blocks with
      | nil => simpa using hblock
      | cons next blocks =>
          rw [List.intercalate_cons_of_ne_nil (List.cons_ne_nil _ _), List.append_assoc]
          exact hblock.append_gap (ih (List.cons_ne_nil _ _) hblocks)

end Tidy

structure LaidOut (text : String) : Prop where
  start : (linesOf text).head? ≠ some ""
  spread : (linesOf text).IsChain fun line next => line = "" → next ≠ ""
  trimmed : ∀ line ∈ linesOf text, line.toList.getLast? ≠ some ' '
  finish : ∃ front last, text.toList = front ++ [last, '\n'] ∧ last ≠ '\n'

namespace Tidy

variable {lines : List Line}

theorem exists_head (h : Tidy lines) :
    ∃ depth body rest, lines = .text depth body :: rest ∧ Firm body := by
  cases h with
  | last hbody => exact ⟨_, _, _, rfl, hbody⟩
  | next hbody _ => exact ⟨_, _, _, rfl, hbody⟩
  | gap hbody _ => exact ⟨_, _, _, rfl, hbody⟩

theorem firm_of_mem (h : Tidy lines) {depth : Nat} {body : String}
    (hmem : Line.text depth body ∈ lines) : Firm body := by
  induction h with
  | last hbody =>
      cases List.mem_singleton.1 hmem
      exact hbody
  | next hbody _ ih =>
      rcases List.mem_cons.1 hmem with hmem | hmem
      · cases hmem
        exact hbody
      · exact ih hmem
  | gap hbody _ ih =>
      rcases List.mem_cons.1 hmem with hmem | hmem
      · cases hmem
        exact hbody
      · exact ih (by simpa using hmem)

theorem content_cases (h : Tidy lines) (unit : Nat) :
    ∀ line ∈ lines, line.content unit = "" ∨ Firm (line.content unit) := by
  intro line hline
  cases line with
  | blank => exact .inl rfl
  | text depth body => exact .inr (Line.firm_content unit depth (h.firm_of_mem hline))

theorem linesOf_textOf (h : Tidy lines) (width : Nat) :
    linesOf (Writer.textOf width lines) =
      lines.map (Line.content (min width widestIndent)) ++ [""] := by
  rw [Writer.textOf_eq_intercalate]
  apply linesOf_intercalate
  · intro piece hpiece
    rcases List.mem_append.1 hpiece with hpiece | hpiece
    · obtain ⟨line, hline, rfl⟩ := List.mem_map.1 hpiece
      rcases h.content_cases _ line hline with hempty | hfirm
      · rw [hempty]
        decide
      · exact hfirm.oneLine
    · rw [List.mem_singleton.1 hpiece]
      decide
  · simp

theorem isChain_content (h : Tidy lines) (unit : Nat) :
    (lines.map (Line.content unit) ++ [""]).IsChain fun line next => line = "" → next ≠ "" := by
  induction h with
  | @last depth body hbody =>
      have hne := (Line.firm_content unit depth hbody).ne_empty
      simp [hne]
  | @next depth body lines hbody _ ih =>
      have hne := (Line.firm_content unit depth hbody).ne_empty
      rw [List.map_cons, List.cons_append, List.isChain_cons]
      exact ⟨fun _ _ hempty => absurd hempty hne, ih⟩
  | @gap depth body lines hbody hlines ih =>
      have hne := (Line.firm_content unit depth hbody).ne_empty
      obtain ⟨below, head, rest, rfl, hhead⟩ := hlines.exists_head
      have hnext := (Line.firm_content unit below hhead).ne_empty
      rw [List.map_cons, List.cons_append, List.isChain_cons, List.map_cons, List.cons_append,
        List.isChain_cons]
      refine ⟨fun _ _ hempty => absurd hempty hne, fun next hmem _ => ?_, ih⟩
      rw [List.map_cons, List.cons_append, List.head?_cons, Option.mem_some_iff] at hmem
      rwa [← hmem]

theorem exists_getLast (h : Tidy lines) :
    ∃ front depth body, lines = front ++ [.text depth body] ∧ Firm body := by
  induction h with
  | last hbody => exact ⟨[], _, _, rfl, hbody⟩
  | next hbody _ ih =>
      obtain ⟨front, depth, body, rfl, hlast⟩ := ih
      exact ⟨_ :: front, depth, body, rfl, hlast⟩
  | gap hbody _ ih =>
      obtain ⟨front, depth, body, rfl, hlast⟩ := ih
      exact ⟨_ :: .blank :: front, depth, body, rfl, hlast⟩

theorem textOf_finish (h : Tidy lines) (width : Nat) :
    ∃ front last, (Writer.textOf width lines).toList = front ++ [last, '\n'] ∧ last ≠ '\n' := by
  obtain ⟨before, depth, body, rfl, hbody⟩ := h.exists_getLast
  have hne : body.toList ≠ [] := by simpa using hbody.ne_empty
  obtain ⟨front, last, hfront⟩ : ∃ front last, body.toList = front ++ [last] :=
    ⟨_, _, (List.dropLast_append_getLast hne).symm⟩
  have hfeed : last ≠ '\n' := by
    rintro rfl
    exact hbody.oneLine (by simp [hfront])
  refine ⟨(Writer.textOf width before).toList ++
    (List.replicate (min width widestIndent * depth) ' ' ++ front), last, ?_, hfeed⟩
  simp [Writer.textOf, Line.render, hfront]

theorem laidOut (h : Tidy lines) (width : Nat) : LaidOut (Writer.textOf width lines) where
  start := by
    obtain ⟨_, _, rest, rfl, hhead⟩ := h.exists_head
    rw [h.linesOf_textOf]
    simpa using (Line.firm_content _ _ hhead).ne_empty
  spread := by
    rw [h.linesOf_textOf]
    exact h.isChain_content _
  trimmed := by
    rw [h.linesOf_textOf]
    intro piece hpiece
    rcases List.mem_append.1 hpiece with hpiece | hpiece
    · obtain ⟨line, hline, rfl⟩ := List.mem_map.1 hpiece
      rcases h.content_cases (min width widestIndent) line hline with hempty | hfirm
      · simp [hempty]
      · exact hfirm.trimmed
    · simp [List.mem_singleton.1 hpiece]
  finish := h.textOf_finish width

end Tidy

end ActionWiring
