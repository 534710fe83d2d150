import ActionWiring.Document.Error

namespace ActionWiring.Document

open Json

def mismatch (tree : Tree) (expected : Expected) : DocumentError :=
  match tree with
  | .array _ _ => .data (.unexpected .sequence expected)
  | .object _ _ => .data (.unexpected .map expected)
  | scalar =>
      match scalar.value 0 with
      | .ok v => .data (.unexpected (.ofValue v) expected)
      | .error fault => .text fault

def readText : Tree → Except DocumentError String
  | .string raw => liftText raw.text
  | tree => .error (mismatch tree .string)

def readText? : Tree → Except DocumentError (Option String)
  | .null => .ok none
  | tree => (readText tree).map some

def readList {α : Type} (read : Nat → Tree → Except DocumentError α) (depth : Nat) :
    Tree → Except DocumentError (List α)
  | .array items fault => do
      let inner ← liftText (enter depth)
      let things ← items.mapM (read inner)
      liftText (closing fault)
      return things
  | tree => .error (mismatch tree .sequence)

def fill {α : Type} (name : String) (slot : Option α) (read : Except DocumentError α) :
    Except DocumentError (Option α) :=
  match slot with
  | some _ => .error (.data (.duplicateField name))
  | none => read.map some

def required {α : Type} (name : String) : Option α → Except DocumentError α
  | some a => .ok a
  | none => .error (.data (.missingField name))

structure Record (δ α : Type) where
  shape : Shape
  fields : List String
  mandatory : Nat
  blank : δ
  put : Nat → δ → String → Tree → Except DocumentError δ
  finish : δ → Except DocumentError α

namespace Record

variable {δ α : Type}

def putMembers (r : Record δ α) (depth : Nat) : δ → List (Tree × Tree) → Except DocumentError δ
  | draft, [] => .ok draft
  | draft, (key, tree) :: members => do
      let name ← liftText key.keyText
      let draft ← r.put depth draft name tree
      r.putMembers depth draft members

def putElements (r : Record δ α) (depth : Nat) :
    δ → List String → List Tree → Except DocumentError δ
  | draft, _, [] => .ok draft
  | _, [], _ :: _ => .error (.text .malformed)
  | draft, name :: names, tree :: trees => do
      let draft ← r.put depth draft name tree
      r.putElements depth draft names trees

def read (r : Record δ α) (depth : Nat) : Tree → Except DocumentError α
  | .object members fault => do
      let inner ← liftText (enter depth)
      let draft ← r.putMembers inner r.blank members
      liftText (closing fault)
      r.finish draft
  | .array items fault => do
      let inner ← liftText (enter depth)
      let draft ← r.putElements inner r.blank r.fields items
      liftText (closing fault)
      if items.length < r.mandatory then .error (.data (.tooShort items.length r.shape))
      else r.finish draft
  | tree => .error (mismatch tree (.ofShape r.shape))

end Record

end ActionWiring.Document
