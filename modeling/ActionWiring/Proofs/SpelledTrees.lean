import ActionWiring.Json.Tree
import ActionWiring.Proofs.Spacing

namespace ActionWiring.Json

def commaed : List (List Token) → List Token := List.intercalate [.comma]

def commaAfter (pieces : List (List Token)) : List Token := pieces.flatMap (· ++ [.comma])

theorem commaed_concat (pieces : List (List Token)) (piece : List Token) :
    commaed (pieces ++ [piece]) = commaAfter pieces ++ piece := by
  induction pieces with
  | nil => simp [commaed, commaAfter]
  | cons first pieces ih =>
      rw [List.cons_append, commaed, List.intercalate_cons_of_ne_nil (by simp), ← commaed, ih]
      simp [commaAfter]

theorem commaed_comma {pieces : List (List Token)} (hne : pieces ≠ []) :
    commaed pieces ++ [.comma] = commaAfter pieces := by
  rcases List.eq_nil_or_concat pieces with hnil | ⟨front, last, rfl⟩
  · exact absurd hnil hne
  · rw [List.concat_eq_append, commaed_concat]
    simp [commaAfter]

theorem commaed_cons (piece : List Token) (pieces : List (List Token)) :
    commaed (piece :: pieces) = piece ++ pieces.flatMap (Token.comma :: ·) := by
  induction pieces generalizing piece with
  | nil => simp [commaed]
  | cons next pieces ih =>
      rw [commaed, List.intercalate_cons_of_ne_nil (by simp), ← commaed, ih]
      simp

theorem mem_commaed {token : Token} (htoken : token ≠ .comma) {pieces : List (List Token)} :
    token ∈ commaed pieces ↔ ∃ piece ∈ pieces, token ∈ piece := by
  rcases List.eq_nil_or_concat pieces with rfl | ⟨front, last, rfl⟩
  · simp [commaed]
  · rw [List.concat_eq_append, commaed_concat]
    simp [commaAfter, htoken, or_and_right, exists_or]

namespace Tree

def closingToken (close : Token) : Option Fault → Token
  | none => close
  | some fault => .broken fault

def keyToken : Tree → Token
  | .string raw => .string raw
  | _ => .broken .malformed

mutual

def tokens : Tree → List Token
  | .absent => [.broken .truncated]
  | .broken fault => [.broken fault]
  | .brokenNumber fault => [.brokenNumber fault]
  | .null => [.null]
  | .bool value => [.bool value]
  | .number numeral => [.number numeral]
  | .string raw => [.string raw]
  | .array items fault =>
      .openArray :: (commaed (itemTokens items) ++ [closingToken .closeArray fault])
  | .object members fault =>
      .openObject :: (commaed (memberTokens members) ++ [closingToken .closeObject fault])

def itemTokens : List Tree → List (List Token)
  | [] => []
  | tree :: trees => tokens tree :: itemTokens trees

def memberTokens : List (Tree × Tree) → List (List Token)
  | [] => []
  | (key, tree) :: members => (keyToken key :: .colon :: tokens tree) :: memberTokens members

end

theorem itemTokens_eq_map (trees : List Tree) : itemTokens trees = trees.map tokens := by
  induction trees with
  | nil => rfl
  | cons tree trees ih => rw [itemTokens, ih, List.map_cons]

theorem memberTokens_eq_map (members : List (Tree × Tree)) :
    memberTokens members = members.map fun m => keyToken m.1 :: .colon :: tokens m.2 := by
  induction members with
  | nil => rfl
  | cons member members ih => rw [memberTokens, ih, List.map_cons]

theorem tokens_array_cons (first : Tree) (items : List Tree) :
    tokens (.array (first :: items) none) =
      .openArray ::
        (first.tokens ++ ((itemTokens items).flatMap (Token.comma :: ·) ++ [.closeArray])) := by
  rw [tokens, itemTokens, commaed_cons, closingToken, List.append_assoc]

theorem tokens_object_cons (key first : Tree) (members : List (Tree × Tree)) :
    tokens (.object ((key, first) :: members) none) =
      .openObject :: key.keyToken :: .colon :: (first.tokens ++
        ((memberTokens members).flatMap (Token.comma :: ·) ++ [.closeObject])) := by
  rw [tokens, memberTokens, commaed_cons, closingToken, List.append_assoc]
  rfl

def Spells (tree : Tree) (text : String) : Prop := Spaced tree.tokens text.toList

def IsBroken (tree : Tree) : Prop := ∃ token ∈ tree.tokens, token.isBroken = true

end Tree

section Reading

variable {tree : Tree} {token : Token} {ts : List Token}

def Frame.tokens : Frame → List Token
  | .array items => .openArray :: commaAfter (Tree.itemTokens items.reverse)
  | .object members key =>
      .openObject :: (commaAfter (Tree.memberTokens members.reverse) ++ [key.keyToken, .colon])

def frameTokens (frames : List Frame) : List Token := frames.reverse.flatMap Frame.tokens

theorem frameTokens_cons (frame : Frame) (frames : List Frame) :
    frameTokens (frame :: frames) = frameTokens frames ++ frame.tokens := by
  simp [frameTokens]

def Place.tokens : Place → List Token
  | .atValue frames => frameTokens frames
  | .atFirstItem frames => frameTokens frames ++ [.openArray]
  | .afterItem items frames =>
      frameTokens frames ++ .openArray :: commaed (Tree.itemTokens items.reverse)
  | .atFirstKey frames => frameTokens frames ++ [.openObject]
  | .atKey members frames =>
      frameTokens frames ++ .openObject :: commaAfter (Tree.memberTokens members.reverse)
  | .atColon members key frames =>
      frameTokens frames ++
        .openObject :: (commaAfter (Tree.memberTokens members.reverse) ++ [key.keyToken])
  | .afterMember members frames =>
      frameTokens frames ++ .openObject :: commaed (Tree.memberTokens members.reverse)
  | .complete root => root.tokens

theorem Place.tokens_after (tree : Tree) (frames : List Frame) :
    (Place.after tree frames).tokens = frameTokens frames ++ tree.tokens := by
  match frames with
  | [] => rfl
  | .array items :: frames =>
      rw [after, tokens, frameTokens_cons, Tree.itemTokens_eq_map, List.reverse_cons,
        List.map_append, List.map_singleton, commaed_concat, ← Tree.itemTokens_eq_map]
      simp [Frame.tokens]
  | .object members key :: frames =>
      rw [after, tokens, frameTokens_cons, Tree.memberTokens_eq_map, List.reverse_cons,
        List.map_append, List.map_singleton, commaed_concat, ← Tree.memberTokens_eq_map]
      simp [Frame.tokens]

theorem Place.isBroken_cut {fault : Fault} (h : tree.IsBroken) (frames : List Frame) :
    (Place.cut fault tree frames).IsBroken := by
  induction frames generalizing tree with
  | nil => exact h
  | cons frame frames ih =>
      cases frame with
      | array items => exact ih ⟨.broken fault, by simp [Tree.tokens, Tree.closingToken], rfl⟩
      | object members key =>
          exact ih ⟨.broken fault, by simp [Tree.tokens, Tree.closingToken], rfl⟩

theorem isBroken_broken (fault : Fault) : (Tree.broken fault).IsBroken :=
  ⟨.broken fault, by simp [Tree.tokens], rfl⟩

theorem isBroken_absent : Tree.absent.IsBroken := ⟨.broken .truncated, by simp [Tree.tokens], rfl⟩

theorem isBroken_array (items : List Tree) (fault : Fault) :
    (Tree.array items (some fault)).IsBroken :=
  ⟨.broken fault, by simp [Tree.tokens, Tree.closingToken], rfl⟩

theorem isBroken_object (members : List (Tree × Tree)) (fault : Fault) :
    (Tree.object members (some fault)).IsBroken :=
  ⟨.broken fault, by simp [Tree.tokens, Tree.closingToken], rfl⟩

def Place.Filled : Place → Prop
  | .afterItem items _ => items ≠ []
  | .afterMember members _ => members ≠ []
  | .atValue _ | .atFirstItem _ | .atFirstKey _ | .atKey _ _ | .atColon _ _ _ | .complete _ => True

theorem Place.filled_after (tree : Tree) (frames : List Frame) :
    (Place.after tree frames).Filled := by
  match frames with
  | [] => trivial
  | .array _ :: _ => exact List.cons_ne_nil _ _
  | .object _ _ :: _ => exact List.cons_ne_nil _ _

def Place.Follows (before : List Token) (token : Token) : Place.Outcome → Prop
  | .ok next => next.Filled ∧ next.tokens = before ++ [token]
  | .error root => root.IsBroken

theorem Place.follows_after {before : List Token} (h : tree.tokens = before ++ [token])
    (frames : List Frame) :
    Follows (frameTokens frames ++ before) token (.ok (after tree frames)) :=
  ⟨filled_after tree frames, by rw [tokens_after, h, List.append_assoc]⟩

theorem Place.follows_beginValue (frames : List Frame) (token : Token) :
    Follows (frameTokens frames) token (beginValue frames token) := by
  match token with
  | .openArray | .openObject => exact ⟨trivial, rfl⟩
  | .null | .bool _ | .number _ | .string ⟨_, none⟩ =>
      exact ⟨filled_after _ frames, tokens_after _ frames⟩
  | .string ⟨pieces, some fault⟩ =>
      exact isBroken_cut ⟨.string ⟨pieces, some fault⟩, by simp [Tree.tokens], rfl⟩ frames
  | .brokenNumber fault =>
      exact isBroken_cut ⟨.brokenNumber fault, by simp [Tree.tokens], rfl⟩ frames
  | .broken fault => exact isBroken_cut (isBroken_broken fault) frames
  | .closeArray | .closeObject | .comma | .colon => exact isBroken_cut (isBroken_broken _) frames

theorem Place.follows_beginKey (members : List (Tree × Tree)) (frames : List Frame)
    (token : Token) :
    Follows (Place.atKey members frames).tokens token (beginKey members frames token) := by
  match token with
  | .string ⟨pieces, none⟩ => exact ⟨trivial, by simp [tokens, Tree.keyToken]⟩
  | .string ⟨_, some _⟩ | .openArray | .closeArray | .openObject | .closeObject | .comma | .colon
  | .null | .bool _ | .number _ | .brokenNumber _ | .broken _ =>
      exact isBroken_cut (isBroken_broken _) _

theorem Place.follows_step {place : Place} (filled : place.Filled)
    (hopen : ∀ root, place ≠ .complete root) (token : Token) :
    Follows place.tokens token (place.step token) := by
  cases place with
  | atValue frames => exact follows_beginValue frames token
  | atFirstItem frames =>
      by_cases hclose : token = .closeArray
      · subst hclose
        exact follows_after rfl frames
      · have hbegin := follows_beginValue (.array [] :: frames) token
        rw [frameTokens_cons] at hbegin
        cases token <;> first | exact absurd rfl hclose | exact hbegin
  | afterItem items frames =>
      match token with
      | .comma =>
          have hne : Tree.itemTokens items.reverse ≠ [] := by
            rw [Tree.itemTokens_eq_map]
            simpa using List.reverse_ne_nil_iff.2 filled
          refine ⟨trivial, ?_⟩
          rw [tokens, tokens, frameTokens_cons, Frame.tokens, ← commaed_comma hne]
          simp
      | .closeArray => exact follows_after rfl frames
      | .openArray | .openObject | .closeObject | .colon | .null | .bool _ | .number _ | .string _
      | .brokenNumber _ | .broken _ => exact isBroken_cut (isBroken_array _ _) frames
  | atFirstKey frames =>
      by_cases hclose : token = .closeObject
      · subst hclose
        exact follows_after rfl frames
      · have hbegin := follows_beginKey [] frames token
        cases token <;> first | exact absurd rfl hclose | exact hbegin
  | atKey members frames => exact follows_beginKey members frames token
  | atColon members key frames =>
      match token with
      | .colon =>
          refine ⟨trivial, ?_⟩
          rw [tokens, tokens, frameTokens_cons, Frame.tokens]
          simp
      | .comma | .openArray | .closeArray | .openObject | .closeObject | .null | .bool _ | .number _
      | .string _ | .brokenNumber _ | .broken _ => exact isBroken_cut (isBroken_broken _) _
  | afterMember members frames =>
      match token with
      | .comma =>
          have hne : Tree.memberTokens members.reverse ≠ [] := by
            rw [Tree.memberTokens_eq_map]
            simpa using List.reverse_ne_nil_iff.2 filled
          refine ⟨trivial, ?_⟩
          rw [tokens, tokens, ← commaed_comma hne]
          simp
      | .closeObject => exact follows_after rfl frames
      | .openArray | .openObject | .closeArray | .colon | .null | .bool _ | .number _ | .string _
      | .brokenNumber _ | .broken _ => exact isBroken_cut (isBroken_object _ _) frames
  | complete root => exact absurd rfl (hopen root)

theorem Place.isBroken_atEnd {place : Place} (hopen : ∀ root, place ≠ .complete root) :
    place.atEnd.IsBroken := by
  cases place with
  | atValue frames => exact isBroken_cut isBroken_absent frames
  | atFirstItem frames => exact isBroken_cut (isBroken_array _ _) frames
  | afterItem items frames => exact isBroken_cut (isBroken_array _ _) frames
  | atFirstKey frames => exact isBroken_cut (isBroken_object _ _) frames
  | atKey members frames => exact isBroken_cut isBroken_absent _
  | atColon members key frames => exact isBroken_cut isBroken_absent _
  | afterMember members frames => exact isBroken_cut (isBroken_object _ _) frames
  | complete root => exact absurd rfl (hopen root)

theorem grow_step {place next : Place} (h : place.step token = .ok next) (ts : List Token) :
    grow place (token :: ts) = grow next ts := by
  cases place with
  | complete root => cases h
  | _ => rw [grow] <;> simp [h]

theorem grow_error {place : Place} {root : Tree} (hopen : ∀ root, place ≠ .complete root)
    (h : place.step token = .error root) (ts : List Token) :
    grow place (token :: ts) = ⟨root, false⟩ := by
  cases place with
  | complete final => exact absurd rfl (hopen final)
  | _ => rw [grow] <;> simp [h]

theorem tokens_of_grow {root : Tree} {place : Place} (filled : place.Filled)
    (hgrow : grow place ts = ⟨root, false⟩) (whole : ¬ root.IsBroken) :
    place.tokens ++ ts = root.tokens := by
  induction ts generalizing place with
  | nil =>
      have hroot : place.atEnd = root := congrArg Text.root hgrow
      cases place with
      | complete final =>
          cases hroot
          exact List.append_nil _
      | _ => exact absurd (hroot ▸ Place.isBroken_atEnd nofun) whole
  | cons token ts ih =>
      by_cases hopen : ∀ root, place ≠ .complete root
      · have hfollows := Place.follows_step filled hopen token
        cases hstep : place.step token with
        | ok next =>
            rw [grow_step hstep] at hgrow
            rw [hstep] at hfollows
            rw [← ih hfollows.1 hgrow, hfollows.2, List.append_assoc]
            rfl
        | error final =>
            rw [grow_error hopen hstep] at hgrow
            rw [hstep] at hfollows
            cases hgrow
            exact absurd hfollows whole
      · simp only [not_forall, not_not] at hopen
        obtain ⟨final, rfl⟩ := hopen
        cases hgrow

theorem isBroken_of_item {items : List Tree} (hmem : tree ∈ items) (h : tree.IsBroken)
    (fault : Option Fault) : (Tree.array items fault).IsBroken := by
  obtain ⟨token, htoken, hbroken⟩ := h
  have hcomma : token ≠ .comma := by
    rintro rfl
    cases hbroken
  refine ⟨token, ?_, hbroken⟩
  have hitems : token ∈ commaed (Tree.itemTokens items) :=
    (mem_commaed hcomma).2
      ⟨tree.tokens, by simpa [Tree.itemTokens_eq_map] using ⟨tree, hmem, rfl⟩, htoken⟩
  simp [Tree.tokens, hitems]

theorem isBroken_of_member {members : List (Tree × Tree)} {member : Tree × Tree}
    (hmem : member ∈ members) (h : member.1.keyToken.isBroken = true ∨ member.2.IsBroken)
    (fault : Option Fault) : (Tree.object members fault).IsBroken := by
  obtain ⟨token, htoken, hbroken⟩ : ∃ token,
      token ∈ member.1.keyToken :: .colon :: member.2.tokens ∧ token.isBroken = true := by
    rcases h with hkey | ⟨token, htoken, hbroken⟩
    · exact ⟨_, List.mem_cons_self, hkey⟩
    · exact ⟨token, by simp [htoken], hbroken⟩
  have hcomma : token ≠ .comma := by
    rintro rfl
    cases hbroken
  refine ⟨token, ?_, hbroken⟩
  have hmembers : token ∈ commaed (Tree.memberTokens members) :=
    (mem_commaed hcomma).2
      ⟨_, by rw [Tree.memberTokens_eq_map]; exact List.mem_map_of_mem hmem, htoken⟩
  simp [Tree.tokens, hmembers]

theorem eq_string_of_keyToken {key : Tree} (h : key.keyToken.isBroken = false) :
    ∃ pieces, key = .string ⟨pieces, none⟩ := by
  match key with
  | .string ⟨pieces, none⟩ => exact ⟨pieces, rfl⟩
  | .string ⟨_, some _⟩ | .absent | .broken _ | .brokenNumber _ | .null | .bool _ | .number _
  | .array _ _ | .object _ _ => cases h

theorem Tree.tokens_head (tree : Tree) :
    ∃ token ts, tree.tokens = token :: ts ∧ token ≠ .closeArray := by
  cases tree with
  | array items fault => exact ⟨_, _, rfl, nofun⟩
  | object members fault => exact ⟨_, _, rfl, nofun⟩
  | _ => exact ⟨_, _, rfl, nofun⟩

theorem grow_firstItem (tree : Tree) (frames : List Frame) (ts : List Token) :
    grow (.atFirstItem frames) (tree.tokens ++ ts) =
      grow (.atValue (.array [] :: frames)) (tree.tokens ++ ts) := by
  obtain ⟨t, rest, ht, hclose⟩ := tree.tokens_head
  have hsame :
      Place.step (.atFirstItem frames) t = Place.step (.atValue (.array [] :: frames)) t := by
    cases t <;> first | rfl | exact absurd rfl hclose
  rw [ht, List.cons_append, grow, grow, hsame]
  · rintro _ ⟨⟩
  · rintro _ ⟨⟩

mutual

theorem Tree.grow_tokens (tree : Tree) (whole : ¬ tree.IsBroken) (frames : List Frame)
    (ts : List Token) :
    grow (.atValue frames) (tree.tokens ++ ts) = grow (Place.after tree frames) ts := by
  match tree with
  | .absent => exact absurd isBroken_absent whole
  | .broken fault => exact absurd (isBroken_broken fault) whole
  | .brokenNumber fault => exact absurd ⟨.brokenNumber fault, by simp [Tree.tokens], rfl⟩ whole
  | .null => exact grow_step rfl ts
  | .bool value => exact grow_step rfl ts
  | .number numeral => exact grow_step rfl ts
  | .string ⟨pieces, none⟩ => exact grow_step rfl ts
  | .string ⟨pieces, some fault⟩ =>
      exact absurd ⟨.string ⟨pieces, some fault⟩, by simp [Tree.tokens], rfl⟩ whole
  | .array items (some fault) => exact absurd (isBroken_array items fault) whole
  | .object members (some fault) => exact absurd (isBroken_object members fault) whole
  | .array [] none =>
      have hopen : Place.step (.atValue frames) .openArray = .ok (.atFirstItem frames) := rfl
      exact (grow_step hopen _).trans (grow_step rfl ts)
  | .array (first :: items) none =>
      have hopen : Place.step (.atValue frames) .openArray = .ok (.atFirstItem frames) := rfl
      have hparts : ∀ tree ∈ first :: items, ¬ tree.IsBroken := fun tree hmem hbroken =>
        whole (isBroken_of_item hmem hbroken none)
      obtain ⟨hfirst, hitems⟩ := List.forall_mem_cons.1 hparts
      have htokens : (Tree.array (first :: items) none).tokens ++ ts =
          .openArray :: (first.tokens ++
            ((Tree.itemTokens items).flatMap (Token.comma :: ·) ++ .closeArray :: ts)) := by
        simp [Tree.tokens_array_cons]
      have hclose : Place.step (.afterItem (items.reverse ++ [first]) frames) .closeArray =
          .ok (Place.after (.array (first :: items) none) frames) := by simp [Place.step]
      rw [htokens, grow_step hopen, grow_firstItem, first.grow_tokens hfirst, Place.after,
        grow_itemTokens items hitems, grow_step hclose]
  | .object [] none =>
      have hopen : Place.step (.atValue frames) .openObject = .ok (.atFirstKey frames) := rfl
      exact (grow_step hopen _).trans (grow_step rfl ts)
  | .object ((key, first) :: members) none =>
      have hparts : ∀ m ∈ (key, first) :: members,
          ¬ (m.1.keyToken.isBroken = true ∨ m.2.IsBroken) :=
        fun m hmem hbroken => whole (isBroken_of_member hmem hbroken none)
      obtain ⟨hmember, hmembers⟩ := List.forall_mem_cons.1 hparts
      rw [not_or, Bool.not_eq_true] at hmember
      obtain ⟨pieces, rfl⟩ := eq_string_of_keyToken hmember.1
      have hopen : Place.step (.atValue frames) .openObject = .ok (.atFirstKey frames) := rfl
      have hkey : Place.step (.atFirstKey frames) (.string ⟨pieces, none⟩) =
          .ok (.atColon [] (.string ⟨pieces, none⟩) frames) := rfl
      have hcolon : Place.step (.atColon [] (.string ⟨pieces, none⟩) frames) .colon =
          .ok (.atValue (.object [] (.string ⟨pieces, none⟩) :: frames)) := rfl
      have htokens : (Tree.object ((.string ⟨pieces, none⟩, first) :: members) none).tokens ++ ts =
          .openObject :: .string ⟨pieces, none⟩ :: .colon :: (first.tokens ++
            ((Tree.memberTokens members).flatMap (Token.comma :: ·) ++ .closeObject :: ts)) := by
        simp [Tree.tokens_object_cons, Tree.keyToken]
      have hclose (member : Tree × Tree) :
          Place.step (.afterMember (members.reverse ++ [member]) frames) .closeObject =
            .ok (Place.after (.object (member :: members) none) frames) := by
        simp [Place.step]
      rw [htokens, grow_step hopen, grow_step hkey, grow_step hcolon, first.grow_tokens hmember.2,
        Place.after, grow_memberTokens members hmembers, grow_step (hclose _)]

theorem grow_itemTokens (trees : List Tree) (whole : ∀ tree ∈ trees, ¬ tree.IsBroken)
    (items : List Tree) (frames : List Frame) (ts : List Token) :
    grow (.afterItem items frames)
        ((Tree.itemTokens trees).flatMap (Token.comma :: ·) ++ ts) =
      grow (.afterItem (trees.reverse ++ items) frames) ts := by
  match trees with
  | [] => rfl
  | tree :: trees =>
      have hcomma : Place.step (.afterItem items frames) .comma =
          .ok (.atValue (.array items :: frames)) := rfl
      obtain ⟨htree, htrees⟩ := List.forall_mem_cons.1 whole
      rw [Tree.itemTokens, List.flatMap_cons, List.cons_append, List.cons_append, List.append_assoc,
        grow_step hcomma, tree.grow_tokens htree, Place.after, grow_itemTokens trees htrees,
        List.reverse_cons, List.append_assoc]
      rfl

theorem grow_memberTokens (members : List (Tree × Tree))
    (whole : ∀ m ∈ members, ¬ (m.1.keyToken.isBroken = true ∨ m.2.IsBroken))
    (done : List (Tree × Tree)) (frames : List Frame) (ts : List Token) :
    grow (.afterMember done frames)
        ((Tree.memberTokens members).flatMap (Token.comma :: ·) ++ ts) =
      grow (.afterMember (members.reverse ++ done) frames) ts := by
  match members with
  | [] => rfl
  | (key, tree) :: members =>
      obtain ⟨hmember, hmembers⟩ := List.forall_mem_cons.1 whole
      rw [not_or, Bool.not_eq_true] at hmember
      obtain ⟨pieces, rfl⟩ := eq_string_of_keyToken hmember.1
      have hcomma : Place.step (.afterMember done frames) .comma = .ok (.atKey done frames) := rfl
      have hkey : Place.step (.atKey done frames) (.string ⟨pieces, none⟩) =
          .ok (.atColon done (.string ⟨pieces, none⟩) frames) := rfl
      have hcolon : Place.step (.atColon done (.string ⟨pieces, none⟩) frames) .colon =
          .ok (.atValue (.object done (.string ⟨pieces, none⟩) :: frames)) := rfl
      have htokens : (Tree.memberTokens ((.string ⟨pieces, none⟩, tree) :: members)).flatMap
            (Token.comma :: ·) ++ ts =
          .comma :: .string ⟨pieces, none⟩ :: .colon :: (tree.tokens ++
            ((Tree.memberTokens members).flatMap (Token.comma :: ·) ++ ts)) := by
        rw [Tree.memberTokens, List.flatMap_cons, Tree.keyToken]
        simp
      rw [htokens, grow_step hcomma, grow_step hkey, grow_step hcolon, tree.grow_tokens hmember.2,
        Place.after, grow_memberTokens members hmembers, List.reverse_cons, List.append_assoc]
      rfl

end

end Reading

section Chains

variable {tokens rest : List Token} {pieces : List (List Token)} {close : Token}

theorem chain_append (h : tokens.IsChain Token.MayPrecede) (hrest : rest.IsChain Token.MayPrecede)
    (hnext : ∀ token ∈ rest.head?, token.endsNumber = true) :
    (tokens ++ rest).IsChain Token.MayPrecede :=
  List.isChain_append.2 ⟨h, hrest, fun _ _ next hmem _ => hnext next hmem⟩

theorem chain_cons {token : Token} (htoken : ∀ numeral, token ≠ .number numeral)
    (h : tokens.IsChain Token.MayPrecede) : (token :: tokens).IsChain Token.MayPrecede :=
  List.isChain_cons.2 ⟨fun _ _ hnumber => absurd hnumber.choose_spec (htoken _), h⟩

theorem chain_rest (h : ∀ piece ∈ pieces, piece.IsChain Token.MayPrecede)
    (hclose : close.endsNumber = true) :
    (pieces.flatMap (Token.comma :: ·) ++ [close]).IsChain Token.MayPrecede ∧
      ∀ token ∈ (pieces.flatMap (Token.comma :: ·) ++ [close]).head?, token.endsNumber = true := by
  induction pieces with
  | nil => exact ⟨.singleton close, by simpa using hclose⟩
  | cons piece pieces ih =>
      obtain ⟨hpiece, hpieces⟩ := List.forall_mem_cons.1 h
      obtain ⟨hchain, hnext⟩ := ih hpieces
      rw [List.flatMap_cons, List.append_assoc, List.cons_append]
      refine ⟨chain_cons nofun (chain_append hpiece hchain hnext), ?_⟩
      rintro token ⟨⟩
      rfl

theorem chain_container {start : Token} (hstart : ∀ numeral, start ≠ .number numeral)
    (h : ∀ piece ∈ pieces, piece.IsChain Token.MayPrecede) (hclose : close.endsNumber = true) :
    (start :: (commaed pieces ++ [close])).IsChain Token.MayPrecede := by
  refine chain_cons hstart ?_
  cases pieces with
  | nil => exact .singleton close
  | cons piece pieces =>
      obtain ⟨hpiece, hpieces⟩ := List.forall_mem_cons.1 h
      obtain ⟨hchain, hnext⟩ := chain_rest hpieces hclose
      rw [commaed_cons, List.append_assoc]
      exact chain_append hpiece hchain hnext

namespace Tree

theorem endsNumber_closingToken (hclose : close.endsNumber = true) (fault : Option Fault) :
    (closingToken close fault).endsNumber = true := by
  cases fault with
  | none => exact hclose
  | some fault => rfl

mutual

theorem chain_tokens (tree : Tree) : tree.tokens.IsChain Token.MayPrecede := by
  match tree with
  | .absent | .broken _ | .brokenNumber _ | .null | .bool _ | .number _ | .string _ =>
      exact .singleton _
  | .array items fault =>
      exact chain_container nofun (chain_itemTokens items) (endsNumber_closingToken rfl fault)
  | .object members fault =>
      exact chain_container nofun (chain_memberTokens members) (endsNumber_closingToken rfl fault)

theorem chain_itemTokens (trees : List Tree) :
    ∀ piece ∈ itemTokens trees, piece.IsChain Token.MayPrecede := by
  match trees with
  | [] => exact List.forall_mem_nil _
  | tree :: trees => exact List.forall_mem_cons.2 ⟨chain_tokens tree, chain_itemTokens trees⟩

theorem chain_memberTokens (members : List (Tree × Tree)) :
    ∀ piece ∈ memberTokens members, piece.IsChain Token.MayPrecede := by
  match members with
  | [] => exact List.forall_mem_nil _
  | (key, tree) :: members =>
      have hkey (numeral : List Char) : key.keyToken ≠ .number numeral := by
        cases key <;> nofun
      exact List.forall_mem_cons.2
        ⟨chain_cons hkey (chain_cons nofun (chain_tokens tree)), chain_memberTokens members⟩

end

end Tree

end Chains

namespace Tree

variable {tree : Tree} {text : String}

theorem Spells.not_isBroken (h : tree.Spells text) : ¬ tree.IsBroken := by
  rintro ⟨token, htoken, hbroken⟩
  rw [Spaced.isBroken h token htoken] at hbroken
  cases hbroken

theorem spells_iff : tree.Spells text ↔ Json.tokens text = tree.tokens ∧ ¬ tree.IsBroken := by
  constructor
  · intro h
    exact ⟨Spaced.tokens_eq h tree.chain_tokens, h.not_isBroken⟩
  · rintro ⟨htokens, whole⟩
    have hspaced : Spaced (Json.tokens text) text.toList := by
      refine spaced_tokens fun token htoken => ?_
      rw [htokens] at htoken
      by_contra hbroken
      exact whole ⟨token, htoken, by simpa using hbroken⟩
    rwa [htokens] at hspaced

theorem Spells.ofString_eq (h : tree.Spells text) : Text.ofString text = ⟨tree, false⟩ := by
  obtain ⟨htokens, whole⟩ := spells_iff.1 h
  rw [Text.ofString, htokens, ← List.append_nil tree.tokens, tree.grow_tokens whole]
  rfl

theorem spells_of_ofString (h : Text.ofString text = ⟨tree, false⟩) (whole : ¬ tree.IsBroken) :
    tree.Spells text := by
  have hstart : (Place.atValue []).Filled := trivial
  exact spells_iff.2 ⟨tokens_of_grow hstart h whole, whole⟩

instance (tree : Tree) : Decidable tree.IsBroken :=
  inferInstanceAs (Decidable (∃ token ∈ tree.tokens, token.isBroken = true))

theorem spells_iff_scan : tree.Spells text ↔
    (text.toList.foldl Scan.step (.reading [] .between)).finish = tree.tokens ∧
      ¬ tree.IsBroken := by
  rw [spells_iff, tokens_eq]

end Tree

end ActionWiring.Json
