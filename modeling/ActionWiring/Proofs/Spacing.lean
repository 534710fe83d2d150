import Mathlib.Data.List.Chain
import ActionWiring.Json.Token

namespace ActionWiring.Json

namespace NumberPhase

def start? (c : Char) : Option NumberPhase :=
  if c = '-' then some .minus
  else if c = '0' then some .zero
  else if c.isDigit then some .integer
  else none

def after? : List Char → Option NumberPhase
  | [] => none
  | c :: cs => (start? c).bind fun phase => cs.foldlM next? phase

theorem not_isDigit_of_start? {c : Char} (h : start? c = none) : ¬ c.isDigit = true := by
  rw [start?] at h
  split at h
  · cases h
  · split at h
    · cases h
    · rwa [ite_eq_right_iff, imp_iff_not (by simp)] at h

theorem after?_concat {cs : List Char} {phase : NumberPhase} (h : after? cs = some phase)
    (c : Char) :
    after? (cs ++ [c]) = phase.next? c := by
  cases cs with
  | nil => cases h
  | cons first cs =>
      obtain ⟨start, hstart, hrest⟩ := Option.bind_eq_some_iff.1 h
      simp [after?, hstart, List.foldlM_append, hrest]

end NumberPhase

def IsNumeral (cs : List Char) : Prop :=
  ∃ phase, NumberPhase.after? cs = some phase ∧ phase.isComplete = true

def hexCode? (hex : List Char) : Option Nat :=
  hex.foldlM (fun code c => (hexDigit? c).map (code * 16 + ·)) 0

inductive Piece.Spells : Piece → List Char → Prop
  | plain {c : Char} : c ≠ '"' → c ≠ '\\' → ¬ c.toNat < 0x20 → Spells (.char c) [c]
  | short {mark c : Char} : shortEscape? mark = some c → Spells (.char c) ['\\', mark]
  | unit {hex : List Char} {code : Nat} : hex.length = 4 → hexCode? hex = some code →
      Spells (.unit code) ('\\' :: 'u' :: hex)

inductive Piece.SpellAll : List Piece → List Char → Prop
  | nil : SpellAll [] []
  | cons {piece : Piece} {pieces : List Piece} {cs rest : List Char} :
      piece.Spells cs → SpellAll pieces rest → SpellAll (piece :: pieces) (cs ++ rest)

def Token.fixed? : Token → Option (List Char)
  | .openArray => some ['[']
  | .closeArray => some [']']
  | .openObject => some ['\x7b']
  | .closeObject => some ['\x7d']
  | .comma => some [',']
  | .colon => some [':']
  | .null => some ['n', 'u', 'l', 'l']
  | .bool true => some ['t', 'r', 'u', 'e']
  | .bool false => some ['f', 'a', 'l', 's', 'e']
  | .number _ | .string _ | .brokenNumber _ | .broken _ => none

inductive Token.Spells : Token → List Char → Prop
  | fixed {token : Token} {cs : List Char} : token.fixed? = some cs → Spells token cs
  | number {cs : List Char} : IsNumeral cs → Spells (.number cs) cs
  | string {pieces : List Piece} {cs : List Char} : Piece.SpellAll pieces cs →
      Spells (.string ⟨pieces, none⟩) ('"' :: (cs ++ ['"']))

inductive Spaced : List Token → List Char → Prop
  | nil {blanks : List Char} : (∀ c ∈ blanks, isBlank c = true) → Spaced [] blanks
  | cons {blanks cs rest : List Char} {token : Token} {tokens : List Token} :
      (∀ c ∈ blanks, isBlank c = true) → token.Spells cs → Spaced tokens rest →
        Spaced (token :: tokens) (blanks ++ (cs ++ rest))

def Token.endsNumber : Token → Bool
  | .comma | .closeArray | .closeObject | .brokenNumber _ | .broken _ => true
  | .openArray | .openObject | .colon | .null | .bool _ | .number _ | .string _ => false

def Token.MayPrecede (token next : Token) : Prop :=
  (∃ numeral, token = .number numeral) → next.endsNumber = true

section Reading

variable {cs rest : List Char} {ts : List Token} {pieces : List Piece}

theorem foldl_blanks (h : ∀ c ∈ cs, isBlank c = true) (ts : List Token) :
    cs.foldl Scan.step (.reading ts .between) = .reading ts .between := by
  induction cs with
  | nil => rfl
  | cons c cs ih =>
      obtain ⟨hc, hcs⟩ := List.forall_mem_cons.1 h
      rw [List.foldl_cons, Scan.step, Mode.step, Mode.begin.eq_def, if_pos hc]
      exact ih hcs

theorem foldl_hex {hex : List Char} {code : Nat} (hlength : hex.length = 4)
    (hcode : hexCode? hex = some code) (ts : List Token) (pieces : List Piece) :
    hex.foldl Scan.step (.reading ts (.unit 0 0 pieces)) =
      .reading ts (.text (.unit code :: pieces)) := by
  match hex, hlength with
  | [w, x, y, z], _ =>
      simp only [hexCode?, List.foldlM_cons, List.foldlM_nil, Option.bind_eq_bind,
        Option.bind_eq_some_iff, Option.map_eq_some_iff, Option.pure_def,
        Option.some.injEq] at hcode
      obtain ⟨_, ⟨a, ha, rfl⟩, _, ⟨b, hb, rfl⟩, _, ⟨c, hc, rfl⟩, _, ⟨d, hd, rfl⟩, rfl⟩ := hcode
      simp [Scan.step, Mode.step, ha, hb, hc, hd]

theorem step_text_plain {c : Char} (hquote : c ≠ '"') (hslash : c ≠ '\\')
    (hcontrol : ¬ c.toNat < 0x20) (pieces : List Piece) :
    (Mode.text pieces).step c = .go [] (.text (.char c :: pieces)) := by
  simp [Mode.step, hquote, hslash, hcontrol]

theorem foldl_piece {piece : Piece} (h : piece.Spells cs) (ts : List Token) (pieces : List Piece) :
    cs.foldl Scan.step (.reading ts (.text pieces)) = .reading ts (.text (piece :: pieces)) := by
  cases h with
  | plain hquote hslash hcontrol =>
      rw [List.foldl_cons, List.foldl_nil, Scan.step, step_text_plain hquote hslash hcontrol]
      rfl
  | short hmark => simp [Scan.step, Mode.step, hmark]
  | unit hlength hcode =>
      have hmark : Scan.step (Scan.step (.reading ts (.text pieces)) '\\') 'u' =
          .reading ts (.unit 0 0 pieces) := rfl
      rw [List.foldl_cons, List.foldl_cons, hmark, foldl_hex hlength hcode]

theorem foldl_pieces {more : List Piece} (h : Piece.SpellAll more cs) (ts : List Token)
    (pieces : List Piece) :
    cs.foldl Scan.step (.reading ts (.text pieces)) =
      .reading ts (.text (more.reverse ++ pieces)) := by
  induction h generalizing pieces with
  | nil => rfl
  | cons hpiece _ ih =>
      rw [List.foldl_append, foldl_piece hpiece, ih, List.reverse_cons, List.append_assoc]
      rfl

theorem foldl_fixed {token : Token} (h : token.fixed? = some cs) (ts : List Token) :
    cs.foldl Scan.step (.reading ts .between) = .reading (token :: ts) .between := by
  cases token with
  | bool value =>
      cases value with
      | false =>
          cases h
          rfl
      | true =>
          cases h
          rfl
  | number _ => cases h
  | string _ => cases h
  | brokenNumber _ => cases h
  | broken _ => cases h
  | _ =>
      cases h
      rfl

theorem foldl_string (h : Piece.SpellAll pieces cs) (ts : List Token) :
    ('"' :: (cs ++ ['"'])).foldl Scan.step (.reading ts .between) =
      .reading (.string ⟨pieces, none⟩ :: ts) .between := by
  have hopen : Scan.step (.reading ts .between) '"' = .reading ts (.text []) := rfl
  rw [List.foldl_cons, List.foldl_append, hopen, foldl_pieces h, List.foldl_cons, List.foldl_nil,
    Scan.step, Mode.step]
  simp

theorem begin_of_start {c : Char} {phase : NumberPhase} (h : NumberPhase.start? c = some phase) :
    Mode.begin c = .go [] (.number phase [c]) := by
  rw [NumberPhase.start?] at h
  split at h
  case isTrue hminus =>
    cases h
    subst hminus
    rfl
  case isFalse =>
    split at h
    case isTrue hzero =>
      cases h
      subst hzero
      rfl
    case isFalse hminus hzero =>
      rw [Option.ite_none_right_eq_some] at h
      obtain ⟨hdigit, hphase⟩ := h
      cases hphase
      have hblank : ¬ isBlank c = true := by
        intro hc
        simp only [isBlank, Bool.or_eq_true, beq_iff_eq, or_assoc] at hc
        rcases hc with rfl | rfl | rfl | rfl <;> exact absurd hdigit (by decide)
      rw [Mode.begin.eq_def, if_neg hblank]
      split
      case h_13 => rw [if_pos hdigit]
      case h_11 => exact absurd rfl hminus
      case h_12 => exact absurd rfl hzero
      all_goals exact absurd hdigit (by decide)

theorem foldl_numeral {phase last : NumberPhase}
    (h : cs.foldlM NumberPhase.next? phase = some last) (ts : List Token) (numeral : List Char) :
    cs.foldl Scan.step (.reading ts (.number phase numeral)) =
      .reading ts (.number last (cs.reverse ++ numeral)) := by
  induction cs generalizing phase numeral with
  | nil =>
      cases h
      rfl
  | cons c cs ih =>
      rw [List.foldlM_cons, Option.bind_eq_bind, Option.bind_eq_some_iff] at h
      obtain ⟨next, hnext, hrest⟩ := h
      rw [List.foldl_cons, Scan.step, Mode.step, hnext]
      simp [ih hrest]

def endsNumeral (c : Char) : Bool :=
  isBlank c || c == ',' || c == ']' || c == '\x7d'

theorem next?_of_endsNumeral {c : Char} (h : endsNumeral c = true) (phase : NumberPhase)
    (hcomplete : phase.isComplete = true) :
    phase.next? c = none ∧ phase.endsBefore c = true := by
  simp only [endsNumeral, isBlank, Bool.or_eq_true, beq_iff_eq, or_assoc] at h
  revert phase
  rcases h with rfl | rfl | rfl | rfl | rfl | rfl | rfl <;> intro phase <;> cases phase <;> decide

theorem foldl_isNumeral (h : IsNumeral cs) (ts : List Token) :
    ∃ phase : NumberPhase, phase.isComplete = true ∧
      cs.foldl Scan.step (.reading ts .between) = .reading ts (.number phase cs.reverse) := by
  obtain ⟨last, hafter, hcomplete⟩ := h
  cases cs with
  | nil => cases hafter
  | cons c cs =>
      obtain ⟨phase, hstart, hrest⟩ := Option.bind_eq_some_iff.1 hafter
      refine ⟨last, hcomplete, ?_⟩
      rw [List.foldl_cons, Scan.step, Mode.step, begin_of_start hstart]
      simpa using foldl_numeral hrest ts [c]

theorem step_numberEnd {phase : NumberPhase} {c : Char} (hnext : phase.next? c = none)
    (hends : phase.endsBefore c = true) (ts : List Token) (numeral : List Char) :
    Scan.step (.reading ts (.number phase numeral)) c =
      Scan.step (.reading (.number numeral.reverse :: ts) .between) c := by
  have hmode : Mode.step (.number phase numeral) c =
      (Mode.begin c).after (.number numeral.reverse) := by
    simp [Mode.step, hnext, hends]
  rw [Scan.step, Scan.step, hmode, Mode.step]
  cases Mode.begin c with
  | go more mode => simp [Progress.after]
  | stop more => simp [Progress.after]

-- A number shows its end only in the character behind it, or in the end of the text.
theorem finish_number {phase : NumberPhase} (hcomplete : phase.isComplete = true)
    (hrest : ∀ c ∈ rest.head?, endsNumeral c = true) (ts : List Token) (numeral : List Char) :
    (rest.foldl Scan.step (.reading ts (.number phase numeral))).finish =
      (rest.foldl Scan.step (.reading (.number numeral.reverse :: ts) .between)).finish := by
  cases rest with
  | nil => simp [Scan.finish, Mode.atEnd, hcomplete]
  | cons c rest =>
      obtain ⟨hnext, hends⟩ := next?_of_endsNumeral (hrest c rfl) phase hcomplete
      rw [List.foldl_cons, List.foldl_cons, step_numberEnd hnext hends]

theorem Spaced.head_endsNumeral (h : Spaced ts cs)
    (hnext : ∀ token ∈ ts.head?, token.endsNumber = true) :
    ∀ c ∈ cs.head?, endsNumeral c = true := by
  have hblanks {blanks : List Char} (hb : ∀ c ∈ blanks, isBlank c = true) :
      ∀ c ∈ blanks, endsNumeral c = true := fun c hc => by simp [endsNumeral, hb c hc]
  intro c hc
  cases h with
  | nil hb => exact hblanks hb c (List.mem_of_mem_head? hc)
  | @cons blanks cs rest token tokens hb htoken _ =>
      cases blanks with
      | cons b blanks =>
          cases hc
          exact hblanks hb _ List.mem_cons_self
      | nil =>
          have hends := hnext token rfl
          cases htoken with
          | number => cases hends
          | string => cases hends
          | fixed hfixed =>
              cases token with
              | comma | closeArray | closeObject =>
                  cases hfixed
                  cases hc
                  rfl
              | brokenNumber | broken => cases hfixed
              | _ => cases hends

theorem Spaced.finish (h : Spaced ts cs) (apart : ts.IsChain Token.MayPrecede) (done : List Token) :
    (cs.foldl Scan.step (.reading done .between)).finish = done.reverse ++ ts := by
  induction h generalizing done with
  | nil hb =>
      rw [foldl_blanks hb]
      simp [Scan.finish, Mode.atEnd]
  | @cons blanks cs rest token tokens hb htoken hrest ih =>
      obtain ⟨hhead, htail⟩ := List.isChain_cons.1 apart
      have hdone : (rest.foldl Scan.step (.reading (token :: done) .between)).finish =
          done.reverse ++ token :: tokens := by
        rw [ih htail, List.reverse_cons, List.append_assoc, List.singleton_append]
      rw [List.foldl_append, foldl_blanks hb, List.foldl_append]
      cases htoken with
      | fixed hfixed => rwa [foldl_fixed hfixed]
      | string hpieces => rwa [foldl_string hpieces]
      | number hnumeral =>
          obtain ⟨phase, hcomplete, hfold⟩ := foldl_isNumeral hnumeral done
          have hends := hrest.head_endsNumeral fun next hnext => hhead next hnext ⟨_, rfl⟩
          rw [hfold, finish_number hcomplete hends, List.reverse_reverse]
          exact hdone

theorem Spaced.tokens_eq {text : String} (h : Spaced ts text.toList)
    (apart : ts.IsChain Token.MayPrecede) : tokens text = ts := by
  rw [Json.tokens_eq, h.finish apart]
  rfl

end Reading

def Token.isBroken : Token → Bool
  | .brokenNumber _ | .broken _ => true
  | .string raw => raw.fault.isSome
  | .openArray | .closeArray | .openObject | .closeObject | .comma | .colon | .null | .bool _
  | .number _ => false

section Spelling

variable {ts ts' : List Token} {token : Token} {pieces : List Piece} {cs cs' : List Char} {c : Char}

theorem Token.Spells.isBroken (h : token.Spells cs) : token.isBroken = false := by
  cases h with
  | number => rfl
  | string => rfl
  | fixed hfixed =>
      cases token with
      | brokenNumber | broken | string => cases hfixed
      | _ => rfl

theorem Spaced.isBroken (h : Spaced ts cs) : ∀ token ∈ ts, token.isBroken = false := by
  induction h with
  | nil => simp
  | cons _ htoken _ ih => exact List.forall_mem_cons.2 ⟨htoken.isBroken, ih⟩

theorem Piece.SpellAll.concat (h : SpellAll pieces cs) {piece : Piece} (hpiece : piece.Spells cs') :
    SpellAll (pieces ++ [piece]) (cs ++ cs') := by
  induction h with
  | nil => simpa using SpellAll.cons hpiece .nil
  | cons hfirst _ ih =>
      rw [List.append_assoc]
      exact .cons hfirst ih

theorem Spaced.blanks {blanks : List Char} (hb : ∀ c ∈ blanks, isBlank c = true)
    (h : Spaced ts cs) : Spaced ts (blanks ++ cs) := by
  cases h with
  | nil hb' => exact .nil (List.forall_mem_append.2 ⟨hb, hb'⟩)
  | cons hb' htoken hrest =>
      rw [← List.append_assoc]
      exact .cons (List.forall_mem_append.2 ⟨hb, hb'⟩) htoken hrest

theorem Spaced.append (h : Spaced ts cs) (h' : Spaced ts' cs') :
    Spaced (ts ++ ts') (cs ++ cs') := by
  induction h with
  | nil hb => exact h'.blanks hb
  | cons hb htoken _ ih =>
      rw [List.append_assoc, List.append_assoc]
      exact .cons hb htoken ih

theorem Spaced.single (htoken : token.Spells cs) : Spaced [token] cs := by
  have hnone : Spaced [] [] := .nil (List.forall_mem_nil _)
  simpa using Spaced.cons (List.forall_mem_nil _) htoken hnone

theorem Spaced.mark (hfixed : token.fixed? = some [c]) (h : Spaced ts cs) :
    Spaced (token :: ts) (c :: cs) :=
  (single (.fixed hfixed)).append h

theorem Spaced.blank (h : Spaced ts cs) (hc : isBlank c = true) : Spaced ts (cs ++ [c]) := by
  simpa using h.append (.nil (by simpa using hc))

def Mode.Holds : Mode → List Char → Prop
  | .between, cs => cs = []
  | .word rest token, cs => rest ≠ [] ∧ token.fixed? = some (cs ++ rest)
  | .number phase numeral, cs => cs = numeral.reverse ∧ NumberPhase.after? cs = some phase
  | .text pieces, cs => ∃ inner, cs = '"' :: inner ∧ Piece.SpellAll pieces.reverse inner
  | .escape pieces, cs =>
      ∃ inner, cs = '"' :: (inner ++ ['\\']) ∧ Piece.SpellAll pieces.reverse inner
  | .unit digits code pieces, cs =>
      ∃ inner hex, cs = '"' :: (inner ++ '\\' :: 'u' :: hex) ∧
        Piece.SpellAll pieces.reverse inner ∧ hex.length = digits ∧ hexCode? hex = some code
  | .badUnit _ _, _ => True

def Scan.Holds (cs : List Char) : Scan → Prop
  | .reading ts mode => ∃ front last, cs = front ++ last ∧ Spaced ts.reverse front ∧ mode.Holds last
  | .stopped ts => ∃ token ∈ ts, token.isBroken = true

namespace Scan

variable {front last read : List Char} {mode : Mode}

theorem holds_between (h : Spaced ts.reverse read) : Holds read (.reading ts .between) :=
  ⟨read, [], (List.append_nil read).symm, h, rfl⟩

theorem holds_go (next : Mode) (hfront : Spaced ts.reverse front)
    (hstep : mode.step c = .go [] next) (hnext : next.Holds (last ++ [c])) :
    ((Scan.reading ts mode).step c).Holds (front ++ (last ++ [c])) := by
  rw [step, hstep]
  exact ⟨front, last ++ [c], rfl, hfront, hnext⟩

theorem holds_end (token : Token) (hfront : Spaced ts.reverse front)
    (hstep : mode.step c = .go [token] .between) (hspells : token.Spells (last ++ [c])) :
    ((Scan.reading ts mode).step c).Holds (front ++ (last ++ [c])) := by
  rw [step, hstep]
  refine holds_between ?_
  simpa using hfront.append (.single hspells)

theorem holds_stop (token : Token) (hstep : mode.step c = .stop [token])
    (hbroken : token.isBroken = true) :
    ((Scan.reading ts mode).step c).Holds read := by
  rw [step, hstep]
  exact ⟨token, by simp, hbroken⟩

theorem holds_begin (hfront : Spaced ts.reverse front) (c : Char) :
    ((Scan.reading ts .between).step c).Holds (front ++ [c]) := by
  have mark (token : Token) (hstep : Mode.step .between c = .go [token] .between)
      (hfixed : token.fixed? = some [c]) :
      ((Scan.reading ts .between).step c).Holds (front ++ [c]) := by
    have hspells : token.Spells ([] ++ [c]) := .fixed hfixed
    exact holds_end token hfront hstep hspells
  have opened (next : Mode) (hstep : Mode.step .between c = .go [] next) (hnext : next.Holds [c]) :
      ((Scan.reading ts .between).step c).Holds (front ++ [c]) := by
    have hholds : next.Holds ([] ++ [c]) := hnext
    exact holds_go next hfront hstep hholds
  by_cases hblank : isBlank c = true
  · have hstep : Mode.step .between c = .go [] .between := by
      rw [Mode.step, Mode.begin.eq_def, if_pos hblank]
    rw [step, hstep]
    exact holds_between (hfront.blank hblank)
  · cases hstart : NumberPhase.start? c with
    | some phase =>
        exact opened _ (begin_of_start hstart) ⟨rfl, by simp [NumberPhase.after?, hstart]⟩
    | none =>
        have hbegin := Mode.begin.eq_def c
        rw [if_neg hblank] at hbegin
        split at hbegin
        case h_1 => exact mark .openArray rfl rfl
        case h_2 => exact mark .closeArray rfl rfl
        case h_3 => exact mark .openObject rfl rfl
        case h_4 => exact mark .closeObject rfl rfl
        case h_5 => exact mark .comma rfl rfl
        case h_6 => exact mark .colon rfl rfl
        case h_7 => exact opened (.text []) rfl ⟨[], rfl, .nil⟩
        case h_8 => exact opened (.word _ .null) rfl ⟨by simp, rfl⟩
        case h_9 => exact opened (.word _ (.bool true)) rfl ⟨by simp, rfl⟩
        case h_10 => exact opened (.word _ (.bool false)) rfl ⟨by simp, rfl⟩
        case h_11 => cases hstart
        case h_12 => cases hstart
        case h_13 =>
          rw [if_neg (NumberPhase.not_isDigit_of_start? hstart)] at hbegin
          exact holds_stop _ hbegin rfl

theorem holds_word (hfront : Spaced ts.reverse front) {rest : List Char}
    (hmode : (Mode.word rest token).Holds last) (c : Char) :
    ((Scan.reading ts (.word rest token)).step c).Holds (front ++ (last ++ [c])) := by
  obtain ⟨hne, hfixed⟩ := hmode
  match rest with
  | [] => exact absurd rfl hne
  | [l] =>
      by_cases hc : c = l
      · subst hc
        exact holds_end token hfront (by simp [Mode.step]) (.fixed hfixed)
      · exact holds_stop (.broken .malformed) (by simp [Mode.step, hc]) rfl
  | l :: next :: rest =>
      by_cases hc : c = l
      · subst hc
        refine holds_go (.word (next :: rest) token) hfront (by simp [Mode.step]) ?_
        exact ⟨List.cons_ne_nil _ _, by simpa using hfixed⟩
      · exact holds_stop (.broken .malformed) (by simp [Mode.step, hc]) rfl

theorem holds_number (hfront : Spaced ts.reverse front) {phase : NumberPhase} {numeral : List Char}
    (hmode : (Mode.number phase numeral).Holds last) (c : Char) :
    ((Scan.reading ts (.number phase numeral)).step c).Holds (front ++ (last ++ [c])) := by
  obtain ⟨rfl, hafter⟩ := hmode
  cases hnext : phase.next? c with
  | some next =>
      refine holds_go (.number next (c :: numeral)) hfront (by simp [Mode.step, hnext]) ?_
      exact ⟨by simp, by rw [NumberPhase.after?_concat hafter, hnext]⟩
  | none =>
      cases hends : phase.endsBefore c with
      | false =>
          exact holds_stop (.brokenNumber .malformed) (by simp [Mode.step, hnext, hends]) rfl
      | true =>
          have hcomplete : phase.isComplete = true := by
            rw [NumberPhase.endsBefore, Bool.and_eq_true] at hends
            exact hends.1
          have hnumber := hfront.append (.single (.number ⟨phase, hafter, hcomplete⟩))
          rw [step_numberEnd hnext hends, ← List.append_assoc]
          exact holds_begin (by simpa using hnumber) c

theorem holds_text (hfront : Spaced ts.reverse front) (hmode : (Mode.text pieces).Holds last)
    (c : Char) : ((Scan.reading ts (.text pieces)).step c).Holds (front ++ (last ++ [c])) := by
  obtain ⟨inner, rfl, hpieces⟩ := hmode
  by_cases hquote : c = '"'
  · subst hquote
    exact holds_end (.string ⟨pieces.reverse, none⟩) hfront (by simp [Mode.step])
      (.string hpieces)
  · by_cases hslash : c = '\\'
    · subst hslash
      exact holds_go (.escape pieces) hfront (by simp [Mode.step]) ⟨inner, rfl, hpieces⟩
    · by_cases hcontrol : c.toNat < 0x20
      · exact holds_stop (.string ⟨pieces.reverse, some .malformed⟩)
          (by simp [Mode.step, hquote, hslash, hcontrol, Mode.cutString]) rfl
      · have hstep := step_text_plain hquote hslash hcontrol pieces
        refine holds_go _ hfront hstep ⟨inner ++ [c], rfl, ?_⟩
        rw [List.reverse_cons]
        exact hpieces.concat (.plain hquote hslash hcontrol)

theorem holds_escape (hfront : Spaced ts.reverse front) (hmode : (Mode.escape pieces).Holds last)
    (c : Char) : ((Scan.reading ts (.escape pieces)).step c).Holds (front ++ (last ++ [c])) := by
  obtain ⟨inner, rfl, hpieces⟩ := hmode
  cases hshort : shortEscape? c with
  | some e =>
      refine holds_go (.text (.char e :: pieces)) hfront (by simp [Mode.step, hshort])
        ⟨inner ++ ['\\', c], by simp, ?_⟩
      rw [List.reverse_cons]
      exact hpieces.concat (.short hshort)
  | none =>
      by_cases hu : c = 'u'
      · subst hu
        exact holds_go (.unit 0 0 pieces) hfront (by simp [Mode.step, hshort])
          ⟨inner, [], by simp, hpieces, rfl, rfl⟩
      · exact holds_stop (.string ⟨pieces.reverse, some .malformed⟩)
          (by simp [Mode.step, hshort, hu, Mode.cutString]) rfl

theorem holds_spoilUnit (hfront : Spaced ts.reverse front) {bytes : Nat}
    (hstep : mode.step c = Mode.spoilUnit bytes pieces) :
    ((Scan.reading ts mode).step c).Holds (front ++ (last ++ [c])) := by
  rw [Mode.spoilUnit] at hstep
  split at hstep
  · exact holds_go _ hfront hstep trivial
  · exact holds_stop (.string ⟨pieces.reverse, some .malformed⟩) hstep rfl

theorem holds_unit (hfront : Spaced ts.reverse front) {digits code : Nat}
    (hmode : (Mode.unit digits code pieces).Holds last) (c : Char) :
    ((Scan.reading ts (.unit digits code pieces)).step c).Holds (front ++ (last ++ [c])) := by
  obtain ⟨inner, hex, rfl, hpieces, rfl, hcode⟩ := hmode
  cases hdigit : hexDigit? c with
  | none => exact holds_spoilUnit hfront (by rw [Mode.step, hdigit])
  | some d =>
      have hmore : hexCode? (hex ++ [c]) = some (code * 16 + d) := by
        rw [hexCode?] at hcode
        simp [hexCode?, List.foldlM_append, hcode, hdigit]
      by_cases hlast : hex.length = 3
      · refine holds_go (.text (.unit (code * 16 + d) :: pieces)) hfront
          (by simp [Mode.step, hdigit, hlast]) ⟨inner ++ '\\' :: 'u' :: (hex ++ [c]), by simp, ?_⟩
        rw [List.reverse_cons]
        exact hpieces.concat (.unit (by simp [hlast]) hmore)
      · exact holds_go (.unit (hex.length + 1) (code * 16 + d) pieces) hfront
          (by simp [Mode.step, hdigit, hlast])
          ⟨inner, hex ++ [c], by simp, hpieces, by simp, hmore⟩

theorem Holds.step {scan : Scan} (h : scan.Holds read) (c : Char) :
    (scan.step c).Holds (read ++ [c]) := by
  cases scan with
  | stopped ts => exact h
  | reading ts mode =>
      obtain ⟨front, last, rfl, hfront, hmode⟩ := h
      rw [List.append_assoc]
      cases mode with
      | between =>
          cases hmode
          exact holds_begin hfront c
      | word rest token => exact holds_word hfront hmode c
      | number phase numeral => exact holds_number hfront hmode c
      | text pieces => exact holds_text hfront hmode c
      | escape pieces => exact holds_escape hfront hmode c
      | unit digits code pieces => exact holds_unit hfront hmode c
      | badUnit bytes pieces => exact holds_spoilUnit hfront rfl

theorem Holds.foldl {scan : Scan} (h : scan.Holds read) (cs : List Char) :
    (cs.foldl Scan.step scan).Holds (read ++ cs) := by
  induction cs generalizing scan read with
  | nil => rwa [List.append_nil]
  | cons c cs ih =>
      have hrest := ih (h.step c)
      rwa [List.append_assoc] at hrest

theorem Holds.finish {scan : Scan} (h : scan.Holds read)
    (whole : ∀ token ∈ scan.finish, token.isBroken = false) : Spaced scan.finish read := by
  cases scan with
  | stopped ts =>
      obtain ⟨token, htoken, hbroken⟩ := h
      have hwhole := whole token (List.mem_reverse.2 htoken)
      rw [hbroken] at hwhole
      cases hwhole
  | reading ts mode =>
      obtain ⟨front, last, rfl, hfront, hmode⟩ := h
      rw [Scan.finish, List.reverse_append] at whole ⊢
      have hend : ∀ token ∈ mode.atEnd, token.isBroken = false := fun token htoken =>
        whole token (List.mem_append_right _ (List.mem_reverse.2 htoken))
      cases mode with
      | between =>
          cases hmode
          simpa [Mode.atEnd] using hfront
      | number phase numeral =>
          obtain ⟨rfl, hafter⟩ := hmode
          cases hcomplete : phase.isComplete with
          | false => simp [Mode.atEnd, hcomplete, Token.isBroken] at hend
          | true =>
              have hnumber := hfront.append (.single (.number ⟨phase, hafter, hcomplete⟩))
              simpa [Mode.atEnd, hcomplete] using hnumber
      | _ => simp [Mode.atEnd, Token.isBroken] at hend

end Scan

theorem spaced_tokens {text : String} (whole : ∀ token ∈ tokens text, token.isBroken = false) :
    Spaced (tokens text) text.toList := by
  rw [tokens_eq] at whole ⊢
  have hstart : Scan.Holds [] (.reading [] .between) := Scan.holds_between (.nil (by simp))
  exact (hstart.foldl text.toList).finish whole

end Spelling

end ActionWiring.Json
