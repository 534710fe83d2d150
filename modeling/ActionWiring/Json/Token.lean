
namespace ActionWiring.Json

inductive Fault where
  | malformed
  | truncated
  deriving DecidableEq, Repr

inductive Piece where
  | char (c : Char)
  | unit (code : Nat)
  deriving DecidableEq, Repr

structure RawString where
  pieces : List Piece
  fault : Option Fault
  deriving DecidableEq, Repr

inductive Token where
  | openArray
  | closeArray
  | openObject
  | closeObject
  | comma
  | colon
  | null
  | bool (value : Bool)
  | number (numeral : List Char)
  | string (raw : RawString)
  | brokenNumber (fault : Fault)
  | broken (fault : Fault)
  deriving DecidableEq, Repr

inductive NumberPhase where
  | minus
  | zero
  | integer
  | point
  | fraction
  | mark
  | sign
  | exponent
  deriving DecidableEq, Repr

namespace NumberPhase

def isComplete : NumberPhase → Bool
  | .zero | .integer | .fraction | .exponent => true
  | .minus | .point | .mark | .sign => false

def next? (phase : NumberPhase) (c : Char) : Option NumberPhase :=
  let isMark := c == 'e' || c == 'E'
  match phase with
  | .minus => if c == '0' then some .zero else if c.isDigit then some .integer else none
  | .zero => if c == '.' then some .point else if isMark then some .mark else none
  | .integer =>
      if c.isDigit then some .integer else if c == '.' then some .point
      else if isMark then some .mark else none
  | .point => if c.isDigit then some .fraction else none
  | .fraction => if c.isDigit then some .fraction else if isMark then some .mark else none
  | .mark =>
      if c == '+' || c == '-' then some .sign else if c.isDigit then some .exponent else none
  | .sign | .exponent => if c.isDigit then some .exponent else none

def endsBefore (phase : NumberPhase) (c : Char) : Bool :=
  phase.isComplete && !(phase == .zero && c.isDigit)

end NumberPhase

inductive Mode where
  | between
  | word (rest : List Char) (token : Token)
  | number (phase : NumberPhase) (numeral : List Char)
  | text (pieces : List Piece)
  | escape (pieces : List Piece)
  | unit (digits : Nat) (code : Nat) (pieces : List Piece)
  | badUnit (bytes : Nat) (pieces : List Piece)
  deriving DecidableEq, Repr

inductive Progress where
  | go (tokens : List Token) (mode : Mode)
  | stop (tokens : List Token)
  deriving DecidableEq, Repr

namespace Progress

def after (token : Token) : Progress → Progress
  | .go tokens mode => .go (tokens ++ [token]) mode
  | .stop tokens => .stop (tokens ++ [token])

end Progress

def isBlank (c : Char) : Bool :=
  c == ' ' || c == '\n' || c == '\t' || c == '\r'

def hexDigit? (c : Char) : Option Nat :=
  if '0' ≤ c ∧ c ≤ '9' then some (c.toNat - '0'.toNat)
  else if 'a' ≤ c ∧ c ≤ 'f' then some (c.toNat - 'a'.toNat + 10)
  else if 'A' ≤ c ∧ c ≤ 'F' then some (c.toNat - 'A'.toNat + 10)
  else none

def shortEscape? : Char → Option Char
  | '"' => some '"'
  | '\\' => some '\\'
  | '/' => some '/'
  | 'b' => some '\x08'
  | 'f' => some '\x0c'
  | 'n' => some '\n'
  | 'r' => some '\r'
  | 't' => some '\t'
  | _ => none

namespace Mode

def begin (c : Char) : Progress :=
  if isBlank c then .go [] .between
  else match c with
    | '[' => .go [.openArray] .between
    | ']' => .go [.closeArray] .between
    | '\x7b' => .go [.openObject] .between
    | '\x7d' => .go [.closeObject] .between
    | ',' => .go [.comma] .between
    | ':' => .go [.colon] .between
    | '"' => .go [] (.text [])
    | 'n' => .go [] (.word ['u', 'l', 'l'] .null)
    | 't' => .go [] (.word ['r', 'u', 'e'] (.bool true))
    | 'f' => .go [] (.word ['a', 'l', 's', 'e'] (.bool false))
    | '-' => .go [] (.number .minus ['-'])
    | '0' => .go [] (.number .zero ['0'])
    | _ => if c.isDigit then .go [] (.number .integer [c]) else .stop [.broken .malformed]

def cutString (pieces : List Piece) (fault : Fault) : Progress :=
  .stop [.string ⟨pieces.reverse, some fault⟩]

def spoilUnit (bytes : Nat) (pieces : List Piece) : Progress :=
  if bytes < 4 then .go [] (.badUnit bytes pieces) else cutString pieces .malformed

def step (mode : Mode) (c : Char) : Progress :=
  match mode with
  | .between => begin c
  | .word [] _ => .stop [.broken .malformed]
  | .word [l] token => if c == l then .go [token] .between else .stop [.broken .malformed]
  | .word (l :: ls) token =>
      if c == l then .go [] (.word ls token) else .stop [.broken .malformed]
  | .number phase numeral =>
      match phase.next? c with
      | some phase => .go [] (.number phase (c :: numeral))
      | none =>
          if phase.endsBefore c then (begin c).after (.number numeral.reverse)
          else .stop [.brokenNumber .malformed]
  | .text pieces =>
      if c == '"' then .go [.string ⟨pieces.reverse, none⟩] .between
      else if c == '\\' then .go [] (.escape pieces)
      else if c.toNat < 0x20 then cutString pieces .malformed
      else .go [] (.text (.char c :: pieces))
  | .escape pieces =>
      match shortEscape? c with
      | some e => .go [] (.text (.char e :: pieces))
      | none => if c == 'u' then .go [] (.unit 0 0 pieces) else cutString pieces .malformed
  | .unit digits code pieces =>
      match hexDigit? c with
      | some d =>
          if digits == 3 then .go [] (.text (.unit (code * 16 + d) :: pieces))
          else .go [] (.unit (digits + 1) (code * 16 + d) pieces)
      | none => spoilUnit (digits + c.utf8Size) pieces
  | .badUnit bytes pieces => spoilUnit (bytes + c.utf8Size) pieces

def atEnd : Mode → List Token
  | .between => []
  | .word _ _ => [.broken .truncated]
  | .number phase numeral =>
      if phase.isComplete then [.number numeral.reverse] else [.brokenNumber .truncated]
  | .text pieces | .escape pieces | .unit _ _ pieces | .badUnit _ pieces =>
      [.string ⟨pieces.reverse, some .truncated⟩]

end Mode

inductive Scan where
  | reading (tokens : List Token) (mode : Mode)
  | stopped (tokens : List Token)
  deriving DecidableEq, Repr

namespace Scan

def step : Scan → Char → Scan
  | .stopped tokens, _ => .stopped tokens
  | .reading tokens mode, c =>
      match mode.step c with
      | .go more mode => .reading (more ++ tokens) mode
      | .stop more => .stopped (more ++ tokens)

def finish : Scan → List Token
  | .reading tokens mode => (mode.atEnd ++ tokens).reverse
  | .stopped tokens => tokens.reverse

end Scan

def tokens (text : String) : List Token := (text.foldl Scan.step (.reading [] .between)).finish

theorem tokens_eq (text : String) :
    tokens text = (text.toList.foldl Scan.step (.reading [] .between)).finish := by
  rw [tokens, String.foldl_eq_foldl_toList]

end ActionWiring.Json
