import ActionWiring.Document.Writing
import ActionWiring.Proofs.SpelledTrees

namespace ActionWiring.Json

def Piece.written (c : Char) : Piece :=
  match c with
  | '\x08' | '\x0c' | '\n' | '\r' | '\t' => .char c
  | c => if c.toNat < 0x20 then .unit c.toNat else .char c

theorem Piece.written_cases (c : Char) :
    (c.toNat < 0x20 ∧ Piece.written c = .unit c.toNat) ∨ Piece.written c = .char c := by
  unfold Piece.written
  split
  case h_6 =>
    by_cases hcontrol : c.toNat < 0x20
    · exact .inl ⟨hcontrol, if_pos hcontrol⟩
    · exact .inr (if_neg hcontrol)
  all_goals exact .inr rfl

def RawString.written (s : String) : RawString := ⟨s.toList.map Piece.written, none⟩

theorem hexDigit?_hexChar : ∀ n < 16, hexDigit? (hexChar n) = some n := by decide

theorem spells_unitEscape {n : Nat} (hn : n < 0x20) :
    (Piece.unit n).Spells ['\\', 'u', '0', '0', hexChar (n / 16), hexChar (n % 16)] := by
  refine .unit rfl ?_
  have hhigh : hexDigit? (hexChar (n / 16)) = some (n / 16) := hexDigit?_hexChar _ (by omega)
  have hlow : hexDigit? (hexChar (n % 16)) = some (n % 16) := hexDigit?_hexChar _ (by omega)
  have hzero : hexDigit? '0' = some 0 := by decide
  simp [hexCode?, hzero, hhigh, hlow, Nat.div_add_mod' n 16]

theorem spells_escapedChar (c : Char) : (Piece.written c).Spells (escapedChar c) := by
  unfold escapedChar
  split
  case h_8 hquote hslash hb hf hnl hr ht =>
    have hwritten : Piece.written c = if c.toNat < 0x20 then .unit c.toNat else .char c := by
      unfold Piece.written
      split <;> simp_all
    rw [hwritten]
    by_cases hcontrol : c.toNat < 0x20
    · rw [if_pos hcontrol, if_pos hcontrol]
      exact spells_unitEscape hcontrol
    · rw [if_neg hcontrol, if_neg hcontrol]
      exact .plain hquote hslash hcontrol
  all_goals exact .short rfl

theorem spellAll_escaped (cs : List Char) :
    Piece.SpellAll (cs.map Piece.written) (cs.flatMap escapedChar) := by
  induction cs with
  | nil => exact .nil
  | cons c cs ih => exact .cons (spells_escapedChar c) ih

theorem spells_stringChars (s : String) :
    (Token.string (RawString.written s)).Spells (stringChars s) :=
  .string (spellAll_escaped s.toList)

namespace Value

mutual

def NumberFree : Value → Prop
  | .number _ => False
  | .array vs => AllNumberFree vs
  | .object ms => MembersNumberFree ms
  | .null | .bool _ | .string _ => True

def AllNumberFree : List Value → Prop
  | [] => True
  | v :: vs => NumberFree v ∧ AllNumberFree vs

def MembersNumberFree : List (String × Value) → Prop
  | [] => True
  | (_, v) :: ms => NumberFree v ∧ MembersNumberFree ms

end

mutual

def tree : Value → Tree
  | .null => .null
  | .bool b => .bool b
  | .number n => .number n.chars
  | .string s => .string (RawString.written s)
  | .array vs => .array (trees vs) none
  | .object ms => .object (memberTrees ms) none

def trees : List Value → List Tree
  | [] => []
  | v :: vs => tree v :: trees vs

def memberTrees : List (String × Value) → List (Tree × Tree)
  | [] => []
  | (name, v) :: ms => (.string (RawString.written name), tree v) :: memberTrees ms

end

mutual

theorem spaced_chars (v : Value) (free : v.NumberFree) : Spaced v.tree.tokens v.chars := by
  match v with
  | .null => exact .single (.fixed rfl)
  | .bool true => exact .single (.fixed rfl)
  | .bool false => exact .single (.fixed rfl)
  | .number n => exact free.elim
  | .string s =>
      rw [chars]
      exact .single (spells_stringChars s)
  | .array [] => exact .mark rfl (.single (.fixed rfl))
  | .array (v :: vs) =>
      rw [NumberFree, AllNumberFree] at free
      rw [tree, trees, Tree.tokens_array_cons, chars]
      exact .mark rfl ((spaced_chars v free.1).append (spaced_itemChars vs free.2))
  | .object [] => exact .mark rfl (.single (.fixed rfl))
  | .object ((name, v) :: ms) =>
      rw [NumberFree, MembersNumberFree] at free
      rw [tree, memberTrees, Tree.tokens_object_cons, chars]
      have hvalue := (spaced_chars v free.1).append (spaced_memberChars ms free.2)
      exact .mark rfl ((Spaced.single (spells_stringChars name)).append (.mark rfl hvalue))

theorem spaced_itemChars (vs : List Value) (free : AllNumberFree vs) :
    Spaced ((Tree.itemTokens (trees vs)).flatMap (Token.comma :: ·) ++ [.closeArray])
      (itemChars vs) := by
  match vs with
  | [] => exact .single (.fixed rfl)
  | v :: vs =>
      rw [AllNumberFree] at free
      rw [trees, Tree.itemTokens, List.flatMap_cons, List.append_assoc, itemChars]
      exact .mark rfl ((spaced_chars v free.1).append (spaced_itemChars vs free.2))

theorem spaced_memberChars (ms : List (String × Value)) (free : MembersNumberFree ms) :
    Spaced ((Tree.memberTokens (memberTrees ms)).flatMap (Token.comma :: ·) ++ [.closeObject])
      (memberChars ms) := by
  match ms with
  | [] => exact .single (.fixed rfl)
  | (name, v) :: ms =>
      rw [MembersNumberFree] at free
      rw [memberTrees, Tree.memberTokens, List.flatMap_cons, List.append_assoc, memberChars]
      have hvalue := (spaced_chars v free.1).append (spaced_memberChars ms free.2)
      exact .mark rfl ((Spaced.single (spells_stringChars name)).append (.mark rfl hvalue))

end

theorem spells_text (v : Value) (free : v.NumberFree) : v.tree.Spells v.text := by
  rw [Tree.Spells, text, String.toList_ofList]
  exact spaced_chars v free

theorem ofString_text (v : Value) (free : v.NumberFree) : Text.ofString v.text = ⟨v.tree, false⟩ :=
  (spells_text v free).ofString_eq

end Value

end ActionWiring.Json
