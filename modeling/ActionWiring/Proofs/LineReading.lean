import ActionWiring.Layout

namespace ActionWiring

def linesOf (text : String) : List String :=
  (text.toList.splitOn '\n').map String.ofList

def OneLine (text : String) : Prop := '\n' ∉ text.toList

instance (text : String) : Decidable (OneLine text) :=
  inferInstanceAs (Decidable ('\n' ∉ text.toList))

@[simp] theorem oneLine_append {left right : String} :
    OneLine (left ++ right) ↔ OneLine left ∧ OneLine right := by
  simp [OneLine, not_or]

theorem oneLine_spaces (n : Nat) : OneLine (String.ofList (List.replicate n ' ')) := by
  simp [OneLine]

theorem oneLine_intercalate {separator : String} (hs : OneLine separator) {texts : List String}
    (h : ∀ text ∈ texts, OneLine text) : OneLine (String.intercalate separator texts) := by
  induction texts with
  | nil => simp [OneLine]
  | cons text texts ih =>
      obtain ⟨htext, htexts⟩ := List.forall_mem_cons.1 h
      cases texts with
      | nil => simpa using htext
      | cons next texts =>
          rw [String.intercalate_cons_cons, oneLine_append, oneLine_append]
          exact ⟨⟨htext, hs⟩, ih htexts⟩

theorem linesOf_intercalate {lines : List String} (h : ∀ line ∈ lines, OneLine line)
    (hne : lines ≠ []) : linesOf (String.intercalate "\n" lines) = lines := by
  have hpieces : ∀ piece ∈ lines.map String.toList, '\n' ∉ piece := by
    simpa [OneLine] using h
  have hsplit := List.splitOn_intercalate '\n' hpieces (by simpa using hne)
  have hfeed : "\n".toList = ['\n'] := rfl
  rw [linesOf, String.toList_intercalate, hfeed, hsplit]
  simp [Function.comp_def]

namespace Line

def content (unit : Nat) : Line → String
  | .blank => ""
  | .text depth body => String.ofList (List.replicate (unit * depth) ' ') ++ body

@[simp] theorem content_blank (unit : Nat) : Line.blank.content unit = "" := rfl

theorem render_eq (unit : Nat) (line : Line) : line.render unit = line.content unit ++ "\n" := by
  cases line with
  | blank => rfl
  | text depth body => rfl

end Line

namespace Writer

theorem textOf_append (width : Nat) (left right : List Line) :
    textOf width (left ++ right) = textOf width left ++ textOf width right := by
  simp [textOf]

theorem textOf_eq_intercalate (width : Nat) (lines : List Line) :
    textOf width lines =
      String.intercalate "\n" (lines.map (Line.content (min width widestIndent)) ++ [""]) := by
  induction lines with
  | nil => rfl
  | cons line lines ih =>
      rw [List.map_cons, List.cons_append, String.intercalate_cons_of_ne_nil (by simp), ← ih,
        ← Line.render_eq]
      exact textOf_append width [line] lines

end Writer

end ActionWiring
