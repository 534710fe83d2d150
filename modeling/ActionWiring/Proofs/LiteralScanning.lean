import Mathlib.Data.List.Basic
import ActionWiring.Plan.Layout

namespace ActionWiring.Dart

inductive Scan where
  | closed (value rest : List Char)
  | interpolated (value rest : List Char)
  | unclosed
  | unopened
  deriving DecidableEq, Repr

def Scan.after (c : Char) : Scan → Scan
  | .closed value rest => .closed (c :: value) rest
  | .interpolated value rest => .interpolated (c :: value) rest
  | .unclosed => .unclosed
  | .unopened => .unopened

def scanInside : List Char → Scan
  | [] => .unclosed
  | '\x27' :: rest => .closed [] rest
  | '$' :: rest => .interpolated [] rest
  | ['\\'] => .unclosed
  | '\\' :: c :: rest => (scanInside rest).after c
  | c :: rest => (scanInside rest).after c

def scan (text : String) : Scan :=
  match text.toList with
  | '\x27' :: rest => scanInside rest
  | _ => .unopened

theorem needsEscape_eq_false_iff {c : Char} :
    needsEscape c = false ↔ c ≠ '\\' ∧ c ≠ '\x27' ∧ c ≠ '$' := by
  simp [needsEscape, and_assoc]

theorem scanInside_plain {c : Char} (h : needsEscape c = false) (rest : List Char) :
    scanInside (c :: rest) = (scanInside rest).after c := by
  obtain ⟨hbackslash, hquote, hdollar⟩ := needsEscape_eq_false_iff.1 h
  rw [scanInside]
  · exact hquote
  · exact hdollar
  · exact fun hc _ => hbackslash hc
  · exact fun _ _ hc _ => hbackslash hc

theorem scanInside_escapeChar (c : Char) (rest : List Char) :
    scanInside (escapeChar c ++ rest) = (scanInside rest).after c := by
  unfold escapeChar
  cases h : needsEscape c with
  | true => rfl
  | false => exact scanInside_plain h rest

theorem scanInside_escaped (value rest : List Char) :
    scanInside (value.flatMap escapeChar ++ '\x27' :: rest) = .closed value rest := by
  induction value with
  | nil => rfl
  | cons c value ih =>
      rw [List.flatMap_cons, List.append_assoc, scanInside_escapeChar, ih]
      rfl

theorem escape_injective {left right : List Char}
    (h : left.flatMap escapeChar = right.flatMap escapeChar) : left = right := by
  have hscan := scanInside_escaped left []
  rw [h, scanInside_escaped] at hscan
  exact (Scan.closed.inj hscan).1.symm

theorem scan_literal_append (value rest : String) :
    scan (literal value ++ rest) = .closed value.toList rest.toList := by
  have hchars : (literal value ++ rest).toList =
      '\x27' :: (value.toList.flatMap escapeChar ++ '\x27' :: rest.toList) := by
    simp [toList_literal, literalChars]
  rw [scan, hchars]
  exact scanInside_escaped value.toList rest.toList

theorem eq_of_literal_append {value other rest : String} (h : literal other = literal value ++ rest) :
    other = value ∧ rest = "" := by
  have hother := scan_literal_append other ""
  rw [String.append_empty, h, scan_literal_append] at hother
  obtain ⟨hvalue, hrest⟩ := Scan.closed.inj hother
  exact ⟨String.toList_inj.1 hvalue.symm, String.toList_inj.1 hrest⟩

theorem literal_injective : Function.Injective literal :=
  fun _ _ h => (eq_of_literal_append (h.trans String.append_empty.symm)).1

theorem literal_delimits :
    (∀ value rest, scan (literal value ++ rest) = .closed value.toList rest.toList) ∧
      Function.Injective literal ∧
      ∀ value other, (literal value).toList <+: (literal other).toList →
        literal value = literal other := by
  refine ⟨scan_literal_append, literal_injective, ?_⟩
  rintro value other ⟨rest, hrest⟩
  have hlonger : literal other = literal value ++ String.ofList rest := by
    rw [← String.toList_inj, String.toList_append, String.toList_ofList, hrest]
  rw [(eq_of_literal_append hlonger).1]

theorem literal_delimits_backslash :
    scan (literal "it\\'s $\\" ++ "';$") = .closed "it\\'s $\\".toList "';$".toList ∧
      literal "\\" ≠ literal "\\\\" ∧ ¬ (literal "\\").toList <+: (literal "\\'").toList := by
  obtain ⟨hscan, hinjective, hshorter⟩ := literal_delimits
  refine ⟨hscan _ _, fun h => absurd (hinjective h) (by decide), fun h => ?_⟩
  exact absurd (hinjective (hshorter _ _ h)) (by decide)

example : scan "'a$b'" = .interpolated ['a'] ['b', '\x27'] := by decide

end ActionWiring.Dart
