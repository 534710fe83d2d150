import ActionWiring.Proofs.LiteralScanning

namespace ActionWiring

namespace Dart

theorem quote_escaped {value front back : List Char}
    (h : value.flatMap escapeChar = front ++ '\x27' :: back) : ∃ before, front = before ++ ['\\'] := by
  have hquote : needsEscape '\x27' = true := by decide
  induction value generalizing front with
  | nil => simp at h
  | cons c value ih =>
      rw [List.flatMap_cons, escapeChar] at h
      cases hc : needsEscape c with
      | true =>
          rw [hc, if_pos rfl] at h
          match front with
          | [] => simp at h
          | [first] =>
              obtain ⟨rfl, -⟩ := List.cons.inj h
              exact ⟨[], rfl⟩
          | first :: second :: front =>
              obtain ⟨before, rfl⟩ := ih (List.cons.inj (List.cons.inj h).2).2
              exact ⟨first :: second :: before, rfl⟩
      | false =>
          rw [hc, if_neg Bool.false_ne_true] at h
          match front with
          | [] =>
              obtain ⟨rfl, -⟩ := List.cons.inj h
              exact absurd (hquote.symm.trans hc) (by decide)
          | first :: front =>
              obtain ⟨before, rfl⟩ := ih (List.cons.inj h).2
              exact ⟨first :: before, rfl⟩

theorem opening_unique {middle value value' : List Char}
    (h : '(' :: '\x27' :: value.flatMap escapeChar =
      middle ++ '(' :: '\x27' :: value'.flatMap escapeChar) : middle = [] := by
  match middle with
  | [] => rfl
  | [first] =>
      obtain ⟨-, hrest⟩ := List.cons.inj h
      simp at hrest
  | first :: second :: middle =>
      have hrest : value.flatMap escapeChar =
          (middle ++ ['(']) ++ '\x27' :: value'.flatMap escapeChar := by
        simpa using (List.cons.inj (List.cons.inj h).2).2
      obtain ⟨before, hbefore⟩ := quote_escaped hrest
      exact absurd (List.append_inj_right' hbefore rfl) (by decide)

theorem literal_unique {front front' value value' : String}
    (h : front ++ "(" ++ literal value ++ ");" = front' ++ "(" ++ literal value' ++ ");") :
    front = front' ∧ value = value' := by
  have hchars : ∀ text word : String, (text ++ "(" ++ literal word ++ ");").toList =
      (text.toList ++ '(' :: '\x27' :: word.toList.flatMap escapeChar) ++ ['\x27', ')', ';'] := by
    intro text word
    simp [toList_literal, literalChars]
  have hopen := congrArg String.toList h
  rw [hchars, hchars, List.append_left_inj] at hopen
  have hfront : front.toList = front'.toList := by
    rcases List.append_eq_append_iff.1 hopen with ⟨middle, hmiddle, hrest⟩ | ⟨middle, hmiddle, hrest⟩
    · rw [hmiddle, opening_unique hrest, List.append_nil]
    · rw [hmiddle, opening_unique hrest, List.append_nil]
  rw [hfront, List.append_right_inj] at hopen
  simp only [List.cons.injEq, true_and] at hopen
  exact ⟨String.toList_inj.1 hfront, String.toList_inj.1 (escape_injective hopen)⟩

end Dart

@[ext] structure Reading where
  name : String
  payload : String
  literal : String
  deriving DecidableEq, Repr

def Reads (container start type line : String) (r : Reading) : Prop :=
  r.literal = Dart.literal (container ++ "-" ++ r.name) ∧
    line = start ++ r.name ++ " = new " ++ type ++ "<" ++ r.payload ++ ">(" ++ r.literal ++ ");"

-- A line is read from its end. Its key belongs to the field that it names, so the literal tells the
-- name, and the name tells where the payload begins.
theorem Reads.unique {container start type line : String} {r r' : Reading}
    (h : Reads container start type line r) (h' : Reads container start type line r') : r = r' := by
  have hclose : ">(" = ">" ++ "(" := rfl
  have hline := h.2.symm.trans h'.2
  rw [h.1, h'.1, hclose, ← String.append_assoc, ← String.append_assoc] at hline
  obtain ⟨hfront, hkey⟩ := Dart.literal_unique hline
  have hname : r.name = r'.name := (String.append_right_inj _).1 hkey
  have hpayload : r.payload = r'.payload := by
    rw [hname, String.append_left_inj, String.append_right_inj] at hfront
    exact hfront
  have hliteral : r.literal = r'.literal := by rw [h.1, h'.1, hname]
  exact Reading.ext hname hpayload hliteral

end ActionWiring
