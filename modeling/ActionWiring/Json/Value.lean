import ActionWiring.Json.Number
import ActionWiring.Json.Tree

namespace ActionWiring.Json

inductive Value where
  | null
  | bool (value : Bool)
  | number (value : Number)
  | string (text : String)
  | array (items : List Value)
  | object (members : List (String × Value))

def maxDepth : Nat := 127

def enter (depth : Nat) : Except Fault Nat :=
  if depth < maxDepth then .ok (depth + 1) else .error .malformed

def closing : Option Fault → Except Fault Unit
  | none => .ok ()
  | some fault => .error fault

def isLeading (unit : Nat) : Bool := 0xD800 ≤ unit && unit < 0xDC00

def isTrailing (unit : Nat) : Bool := 0xDC00 ≤ unit && unit < 0xE000

def pairChar (leading trailing : Nat) : Char :=
  Char.ofNat (0x10000 + (leading - 0xD800) * 0x400 + (trailing - 0xDC00))

namespace RawString

def chars (fault : Option Fault) : List Char → List Piece → Except Fault (List Char)
  | done, [] => do
      closing fault
      return done.reverse
  | done, .char c :: ps => chars fault (c :: done) ps
  | done, .unit u :: ps =>
      if isTrailing u then .error .malformed
      else if isLeading u then
        match ps with
        | [] => .error (fault.getD .malformed)
        | .unit v :: ps =>
            if isTrailing v then chars fault (pairChar u v :: done) ps else .error .malformed
        | .char _ :: _ => .error .malformed
      else chars fault (Char.ofNat u :: done) ps

def text (raw : RawString) : Except Fault String := do
  let cs ← chars raw.fault [] raw.pieces
  return String.ofList cs

end RawString

namespace Tree

def keyText : Tree → Except Fault String
  | .string raw => raw.text
  | .absent => .error .truncated
  | _ => .error .malformed

def numberOf (numeral : List Char) : Except Fault Number :=
  match Number.ofNumeral? (Numeral.ofChars numeral) with
  | some n => .ok n
  | none => .error .malformed

mutual

def value (depth : Nat) : Tree → Except Fault Value
  | .absent => .error .truncated
  | .broken fault => .error fault
  | .brokenNumber fault => .error fault
  | .null => .ok .null
  | .bool b => .ok (.bool b)
  | .number numeral => do
      let n ← numberOf numeral
      return .number n
  | .string raw => do
      let s ← raw.text
      return .string s
  | .array items fault => do
      let inner ← enter depth
      let vs ← values inner items
      closing fault
      return .array vs
  | .object members fault => do
      let inner ← enter depth
      let ms ← memberValues inner members
      closing fault
      return .object ms

def values (depth : Nat) : List Tree → Except Fault (List Value)
  | [] => .ok []
  | t :: ts => do
      let v ← value depth t
      let vs ← values depth ts
      return v :: vs

def memberValues (depth : Nat) : List (Tree × Tree) → Except Fault (List (String × Value))
  | [] => .ok []
  | (k, t) :: ts => do
      let name ← k.keyText
      let v ← value depth t
      let vs ← memberValues depth ts
      return (name, v) :: vs

end

def skipKey : Tree → Except Fault Unit
  | .string raw => closing raw.fault
  | .absent => .error .truncated
  | _ => .error .malformed

mutual

def skip : Tree → Except Fault Unit
  | .absent => .error .truncated
  | .broken fault => .error fault
  | .brokenNumber _ => .error .malformed
  | .null | .bool _ | .number _ => .ok ()
  | .string raw => closing raw.fault
  | .array items fault => do
      skipAll items
      closing fault
  | .object members fault => do
      skipMembers members
      closing fault

def skipAll : List Tree → Except Fault Unit
  | [] => .ok ()
  | t :: ts => do
      skip t
      skipAll ts

def skipMembers : List (Tree × Tree) → Except Fault Unit
  | [] => .ok ()
  | (k, t) :: ts => do
      skipKey k
      skip t
      skipMembers ts

end

end Tree

end ActionWiring.Json
