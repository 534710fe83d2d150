import Mathlib.Logic.Relation
import ActionWiring.Document.Reading

namespace ActionWiring.Document

open Json

inductive Role where
  | unit
  | declaration
  | constructor
  | field
  | typeParameter
  | type
  | list (item : Role)
  | other
  deriving DecidableEq, Repr

namespace Role

def parts : Role → List (String × Role)
  | .unit => [("declarations", .list .declaration), ("library", .list .declaration)]
  | .declaration =>
      [("name", .other), ("display_name", .other), ("kind", .other),
        ("constructors", .list .constructor), ("fields", .list .field),
        ("supertypes", .list .other)]
  | .constructor => [("name", .other)]
  | .field => [("name", .other), ("type", .type)]
  | .typeParameter => [("name", .other), ("bound", .type)]
  | .type =>
      [(kindField, .other), ("name", .other), ("params", .list .typeParameter),
        ("args", .list .type)]
  | .list _ | .other => []

def member (role : Role) (name : String) : Role := (role.parts.lookup name).getD .other

def element : Role → Nat → Role
  | .list item, _ => item
  | role, i => (role.parts[i]?.map Prod.snd).getD .other

theorem mem_parts_of_member {role item : Role} {name : String} (h : role.member name = .list item) :
    (name, .list item) ∈ role.parts := by
  cases hpart : role.parts.lookup name with
  | none =>
      rw [member, hpart] at h
      cases h
  | some part =>
      rw [member, hpart] at h
      obtain ⟨front, back, hparts, -⟩ := List.lookup_eq_some_iff.1 hpart
      rw [hparts, ← show part = .list item from h]
      exact List.mem_append_right _ List.mem_cons_self

def under (role : Role) (key : Tree) : Role :=
  match key.keyText with
  | .ok name => role.member name
  | .error _ => .other

inductive IsDefault : Role → String → Tree → Prop
  | emptyList {role item : Role} {name : String} (h : role.member name = .list item) :
      IsDefault role name (.array [] none)
  | noDisplayName : IsDefault .declaration "display_name" .null
  | noBound : IsDefault .typeParameter "bound" .null
  | unnamed {tree : Tree} (h : tree.keyText = .ok "") : IsDefault .constructor "name" tree
  | classWord {tree : Tree} (h : tree.keyText = .ok DeclarationKind.classDecl.word) :
      IsDefault .declaration "kind" tree
  | classObject {key : Tree} (h : key.keyText = .ok DeclarationKind.classDecl.word) :
      IsDefault .declaration "kind" (.object [(key, .null)] none)

end Role

variable {role : Role} {tree tree' : Tree}

inductive Rewrite : Role → Tree → Tree → Prop
  | item {role : Role} {front back : List Tree} {a b : Tree} {fault : Option Fault}
      (h : Rewrite (role.element front.length) a b) :
      Rewrite role (.array (front ++ a :: back) fault) (.array (front ++ b :: back) fault)
  | member {role : Role} {front back : List (Tree × Tree)} {key a b : Tree} {fault : Option Fault}
      (h : Rewrite (role.under key) a b) :
      Rewrite role (.object (front ++ (key, a) :: back) fault)
        (.object (front ++ (key, b) :: back) fault)
  | permute {role : Role} {members members' : List (Tree × Tree)} {fault : Option Fault}
      (h : members.Perm members') : Rewrite role (.object members fault) (.object members' fault)
  | leaveOut {role : Role} {front back : List (Tree × Tree)} {key tree : Tree} {name : String}
      {fault : Option Fault} (hkey : key.keyText = .ok name) (h : role.IsDefault name tree) :
      Rewrite role (.object (front ++ (key, tree) :: back) fault) (.object (front ++ back) fault)

def Rewrites (role : Role) : Tree → Tree → Prop := Relation.ReflTransGen (Rewrite role)

namespace Rewrites

variable {a b c : Tree} {fault : Option Fault}

theorem trans (h : Rewrites role a b) (h' : Rewrites role b c) : Rewrites role a c :=
  Relation.ReflTransGen.trans h h'

theorem item (front back : List Tree) (h : Rewrites (role.element front.length) a b) :
    Rewrites role (.array (front ++ a :: back) fault) (.array (front ++ b :: back) fault) := by
  induction h with
  | refl => exact .refl
  | tail _ hstep ih => exact .tail ih (.item hstep)

theorem member (front back : List (Tree × Tree)) (key : Tree) (h : Rewrites (role.under key) a b) :
    Rewrites role (.object (front ++ (key, a) :: back) fault)
      (.object (front ++ (key, b) :: back) fault) := by
  induction h with
  | refl => exact .refl
  | tail _ hstep ih => exact .tail ih (.member hstep)

theorem permute {members members' : List (Tree × Tree)} (h : members.Perm members') :
    Rewrites role (.object members fault) (.object members' fault) :=
  .single (.permute h)

theorem leaveOut (front back : List (Tree × Tree)) {key tree : Tree} {name : String}
    (hkey : key.keyText = .ok name) (h : role.IsDefault name tree) :
    Rewrites role (.object (front ++ (key, tree) :: back) fault) (.object (front ++ back) fault) :=
  .single (.leaveOut hkey h)

end Rewrites

end ActionWiring.Document
