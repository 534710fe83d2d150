import ActionWiring.Proofs.Outcomes
import ActionWiring.Proofs.WrittenText

namespace ActionWiring.Json

namespace Value

mutual

def nesting : Value → Nat
  | .null | .bool _ | .number _ | .string _ => 0
  | .array vs => nestingAll vs + 1
  | .object ms => membersNesting ms + 1

def nestingAll : List Value → Nat
  | [] => 0
  | v :: vs => max (nesting v) (nestingAll vs)

def membersNesting : List (String × Value) → Nat
  | [] => 0
  | (_, v) :: ms => max (nesting v) (membersNesting ms)

end

end Value

section

variable {α β ε : Type} {fault : ε} {n m k : Nat} {a : α} {b : β}

def within (fault : ε) (depth : Nat) (a : α) : Except ε α :=
  if depth ≤ maxDepth then .ok a else .error fault

theorem within_of_le (h : n ≤ maxDepth) : within fault n a = .ok a := if_pos h

theorem within_of_lt (h : maxDepth < n) : within fault n a = .error fault :=
  if_neg (Nat.not_le.2 h)

theorem bind_within {x : Except ε α} {f : α → Except ε β} (hx : x = within fault n a)
    (hf : n ≤ maxDepth → f a = within fault m b) (hk : k = max n m) :
    (x >>= f) = within fault k b := by
  subst hx hk
  by_cases hn : n ≤ maxDepth
  · rw [within_of_le hn]
    change f a = _
    rw [hf hn, within, within]
    simp only [Nat.max_le, hn, true_and]
  · have hlt : maxDepth < n := Nat.lt_of_not_le hn
    rw [within_of_lt hlt, within_of_lt (Nat.lt_of_lt_of_le hlt (Nat.le_max_left n m))]
    rfl

theorem map_within {x : Except ε α} (hx : x = within fault n a) (f : α → β) :
    (x >>= fun a => pure (f a)) = within fault n (f a) := by
  subst hx
  by_cases hn : n ≤ maxDepth
  · rw [within_of_le hn, within_of_le hn]
    rfl
  · have hlt : maxDepth < n := Nat.lt_of_not_le hn
    rw [within_of_lt hlt, within_of_lt hlt]
    rfl

theorem enter_eq_within (depth : Nat) :
    enter depth = within .malformed (depth + 1) (depth + 1) := by
  rw [enter, within]
  by_cases h : depth < maxDepth
  · rw [if_pos h, if_pos (Nat.succ_le_of_lt h)]
  · rw [if_neg h, if_neg (by omega)]

end

namespace RawString

theorem chars_unit {u : Nat} (hleading : isLeading u = false) (htrailing : isTrailing u = false)
    (fault : Option Fault) (done : List Char) (ps : List Piece) :
    chars fault done (.unit u :: ps) = chars fault (Char.ofNat u :: done) ps := by
  rw [chars.eq_def]
  simp only [hleading, htrailing, Bool.false_eq_true, if_false]

theorem chars_written (cs done : List Char) :
    chars none done (cs.map Piece.written) = .ok (done.reverse ++ cs) := by
  induction cs generalizing done with
  | nil => simp [chars, closing, bind, Except.bind, pure, Except.pure]
  | cons c cs ih =>
      have hnext : chars none (c :: done) (cs.map Piece.written) = .ok (done.reverse ++ c :: cs) := by
        rw [ih, List.reverse_cons, List.append_assoc, List.singleton_append]
      rw [List.map_cons]
      rcases Piece.written_cases c with ⟨hsmall, hpiece⟩ | hpiece
      · have hleading : isLeading c.toNat = false := by
          simp only [isLeading, Bool.and_eq_false_iff, decide_eq_false_iff_not]
          omega
        have htrailing : isTrailing c.toNat = false := by
          simp only [isTrailing, Bool.and_eq_false_iff, decide_eq_false_iff_not]
          omega
        rw [hpiece, chars_unit hleading htrailing, Char.ofNat_toNat]
        exact hnext
      · rw [hpiece, chars]
        exact hnext

theorem text_written (s : String) : (written s).text = .ok s := by
  rw [text, written, chars_written, List.reverse_nil, List.nil_append]
  simp [bind, Except.bind, pure, Except.pure]

end RawString

namespace Tree

theorem keyText_written (name : String) :
    keyText (.string (RawString.written name)) = .ok name :=
  RawString.text_written name

mutual

theorem value_tree (v : Value) (free : v.NumberFree) {depth : Nat} (hdepth : depth ≤ maxDepth) :
    value depth v.tree = within .malformed (depth + v.nesting) v := by
  match v with
  | .null => exact (within_of_le hdepth).symm
  | .bool b => exact (within_of_le hdepth).symm
  | .number n => exact free.elim
  | .string s =>
      rw [Value.tree, value, RawString.text_written]
      exact (within_of_le hdepth).symm
  | .array vs =>
      rw [Value.tree, value, Value.nesting]
      have hitems : depth + 1 ≤ maxDepth →
          (values (depth + 1) (Value.trees vs) >>= fun vs => pure (Value.array vs)) =
            within .malformed (depth + 1 + Value.nestingAll vs) (.array vs) :=
        fun hinner => map_within (values_trees vs free hinner) Value.array
      exact bind_within (enter_eq_within depth) hitems (by omega)
  | .object ms =>
      rw [Value.tree, value, Value.nesting]
      have hmembers : depth + 1 ≤ maxDepth →
          (memberValues (depth + 1) (Value.memberTrees ms) >>= fun ms => pure (Value.object ms)) =
            within .malformed (depth + 1 + Value.membersNesting ms) (.object ms) :=
        fun hinner => map_within (memberValues_memberTrees ms free hinner) Value.object
      exact bind_within (enter_eq_within depth) hmembers (by omega)

theorem values_trees (vs : List Value) (free : Value.AllNumberFree vs) {depth : Nat}
    (hdepth : depth ≤ maxDepth) :
    values depth (Value.trees vs) = within .malformed (depth + Value.nestingAll vs) vs := by
  match vs with
  | [] => exact (within_of_le hdepth).symm
  | v :: vs =>
      rw [Value.AllNumberFree] at free
      rw [Value.trees, values, Value.nestingAll]
      have hrest := map_within (values_trees vs free.2 hdepth) fun vs => v :: vs
      exact bind_within (value_tree v free.1 hdepth) (fun _ => hrest) (by omega)

theorem memberValues_memberTrees (ms : List (String × Value)) (free : Value.MembersNumberFree ms)
    {depth : Nat} (hdepth : depth ≤ maxDepth) :
    memberValues depth (Value.memberTrees ms) =
      within .malformed (depth + Value.membersNesting ms) ms := by
  match ms with
  | [] => exact (within_of_le hdepth).symm
  | (name, v) :: ms =>
      rw [Value.MembersNumberFree] at free
      have hrest := map_within (memberValues_memberTrees ms free.2 hdepth) fun ms => (name, v) :: ms
      rw [Value.memberTrees, memberValues, keyText_written, Value.membersNesting]
      change (value depth v.tree >>= fun v =>
        memberValues depth (Value.memberTrees ms) >>= fun ms => pure ((name, v) :: ms)) = _
      exact bind_within (value_tree v free.1 hdepth) (fun _ => hrest) (by omega)

end

end Tree

end ActionWiring.Json
