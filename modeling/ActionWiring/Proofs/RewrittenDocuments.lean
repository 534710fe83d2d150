import ActionWiring.Document.Reading
import ActionWiring.Plan.Layout
import ActionWiring.Proofs.StreamedRewriting
import ActionWiring.Proofs.WrittenTree

namespace ActionWiring

open Document

namespace CompilationUnit

variable {source text : String} {u : CompilationUnit} {tree : Json.Tree}

theorem readWhole_eq_ok {α : Type} {read : Nat → Json.Tree → Except DocumentError α} {a : α} :
    readWhole read source = .ok a ↔
      ∃ tree, Json.Text.ofString source = ⟨tree, false⟩ ∧ read 0 tree = .ok a := by
  rw [readWhole, bind_eq_ok]
  constructor
  · rintro ⟨found, hread, hwhole⟩
    cases htrailing : (Json.Text.ofString source).trailing with
    | true => simp [htrailing] at hwhole
    | false =>
        simp only [htrailing, Bool.false_eq_true, if_false] at hwhole
        cases hwhole
        exact ⟨_, by rw [← htrailing], hread⟩
  · rintro ⟨tree, htext, hread⟩
    rw [htext]
    exact ⟨a, hread, rfl⟩

theorem load_eq_ok : load source = .ok u ↔ parseUnit source = .ok u ∧ u.check = .ok () := by
  simp only [load, bind_eq_ok, mapError_eq_ok]
  constructor
  · rintro ⟨v, hparse, ⟨⟩, hcheck, ⟨⟩⟩
    exact ⟨hparse, hcheck⟩
  · rintro ⟨hparse, hcheck⟩
    exact ⟨u, hparse, (), hcheck, rfl⟩

theorem spells_iff_of_load (h : load source = .ok u) :
    ∃ tree, unitRecord.read 0 tree = .ok u ∧ ∀ tree', tree'.Spells source ↔ tree' = tree := by
  obtain ⟨tree, htext, hread⟩ := readWhole_eq_ok.1 (load_eq_ok.1 h).1
  have hspells := Json.Tree.spells_of_ofString htext (not_isBroken_of_skip (checks_unit hread))
  refine ⟨tree, hread, fun tree' => ⟨fun hspells' => ?_, fun heq => heq ▸ hspells⟩⟩
  exact congrArg Json.Text.root (hspells'.ofString_eq.symm.trans htext)

theorem load_of_spells (hread : unitRecord.read 0 tree = .ok u) (hcheck : u.check = .ok ())
    (h : tree.Spells text) : load text = .ok u :=
  load_eq_ok.2 ⟨readWhole_eq_ok.2 ⟨tree, h.ofString_eq, hread⟩, hcheck⟩

theorem load_rewritten (source : String) (u : CompilationUnit) (accepted : load source = .ok u) :
    (∃! tree : Json.Tree, tree.Spells source) ∧
    ∀ (tree tree' : Json.Tree) (text : String), tree.Spells source → Rewrites .unit tree tree' →
      tree'.Spells text →
      ∃ again, load text = .ok again ∧ again.own = u.own ∧ again.library = u.library ∧
        ∀ s, again.generate s = u.generate s := by
  obtain ⟨tree, hread, hspells⟩ := spells_iff_of_load accepted
  refine ⟨⟨tree, (hspells tree).2 rfl, fun tree' => (hspells tree').1⟩, ?_⟩
  intro written tree' text hwritten hrewrites htext
  obtain rfl := (hspells written).1 hwritten
  have hagain : unitRecord.read 0 tree' = .ok u := hrewrites.keeps (.record .unit) hread
  exact ⟨u, load_of_spells hagain (load_eq_ok.1 accepted).2 htext, rfl, rfl, fun _ => rfl⟩

section Example

open Json

def textTree (text : String) : Tree := .string (RawString.written text)

def objectTree (members : List (String × Tree)) : Tree :=
  .object (members.map fun m => (textTree m.1, m.2)) none

def listTree (items : List Tree) : Tree := .array items none

variable {role : Role} {a b : Tree}

theorem rewrites_member (front back : List (String × Tree)) (name : String)
    (h : Rewrites (role.member name) a b) :
    Rewrites role (objectTree (front ++ (name, a) :: back))
      (objectTree (front ++ (name, b) :: back)) := by
  rw [← Role.under_eq (Tree.keyText_written name)] at h
  rw [objectTree, objectTree, List.map_append, List.map_append, List.map_cons, List.map_cons]
  exact .member _ _ _ h

theorem rewrites_leaveOut (front back : List (String × Tree)) {name : String}
    (h : role.IsDefault name a) :
    Rewrites role (objectTree (front ++ (name, a) :: back)) (objectTree (front ++ back)) := by
  rw [objectTree, objectTree, List.map_append, List.map_append, List.map_cons]
  exact .leaveOut _ _ (Tree.keyText_written name) h

theorem rewrites_reverse (members : List (String × Tree)) :
    Rewrites role (objectTree members) (objectTree members.reverse) :=
  .permute ((List.reverse_perm members).symm.map _)

def shelfType : Tree :=
  objectTree [("kind", textTree "parameterized"), ("name", textTree "List"),
    ("params", listTree [objectTree [("name", textTree "E"), ("bound", .null)]]),
    ("args", listTree [objectTree [("kind", textTree "named"), ("name", textTree "Item"),
      ("args", listTree [])]])]

def shelf : Tree :=
  objectTree [("declarations", listTree [objectTree [("name", textTree "Shelf"),
    ("kind", textTree "class"),
    ("fields", listTree [objectTree [("name", textTree "items"), ("type", shelfType)]])]]),
    ("library", listTree [])]

def shelfTypeReversed : Tree :=
  objectTree [
    ("args", listTree [objectTree [("name", textTree "Item"), ("kind", textTree "named")]]),
    ("params", listTree [objectTree [("name", textTree "E")]]), ("name", textTree "List"),
    ("kind", textTree "parameterized")]

def shelfReversed : Tree :=
  objectTree [("declarations", listTree [objectTree [
    ("fields", listTree [objectTree [("type", shelfTypeReversed), ("name", textTree "items")]]),
    ("name", textTree "Shelf")]])]

theorem rewrites_shelfType : Rewrites .type shelfType shelfTypeReversed := by
  have hparam : Rewrites .typeParameter (objectTree [("name", textTree "E"), ("bound", .null)])
      (objectTree [("name", textTree "E")]) :=
    rewrites_leaveOut [_] [] .noBound
  have harg : Rewrites .type
      (objectTree [("kind", textTree "named"), ("name", textTree "Item"), ("args", listTree [])])
      (objectTree [("name", textTree "Item"), ("kind", textTree "named")]) :=
    .trans (rewrites_leaveOut [_, _] [] (.emptyList rfl)) (rewrites_reverse [_, _])
  refine .trans (rewrites_member [_, _] [_] "params" (.item [] [] hparam)) ?_
  refine .trans (rewrites_member [_, _, _] [] "args" (.item [] [] harg)) ?_
  exact rewrites_reverse [_, _, _, _]

theorem rewrites_shelf : Rewrites .unit shelf shelfReversed := by
  have hfield : Rewrites .field (objectTree [("name", textTree "items"), ("type", shelfType)])
      (objectTree [("type", shelfTypeReversed), ("name", textTree "items")]) :=
    .trans (rewrites_member [_] [] "type" rewrites_shelfType) (rewrites_reverse [_, _])
  have hdeclaration : Rewrites .declaration
      (objectTree [("name", textTree "Shelf"), ("kind", textTree "class"),
        ("fields", listTree [objectTree [("name", textTree "items"), ("type", shelfType)]])])
      (objectTree [("fields",
        listTree [objectTree [("type", shelfTypeReversed), ("name", textTree "items")]]),
        ("name", textTree "Shelf")]) := by
    refine .trans (rewrites_leaveOut [_] [_] (.classWord (Tree.keyText_written "class"))) ?_
    exact .trans (rewrites_member [_] [] "fields" (.item [] [] hfield)) (rewrites_reverse [_, _])
  refine .trans (rewrites_leaveOut [_] [] (.emptyList rfl)) ?_
  exact rewrites_member [] [] "declarations" (.item [] [] hdeclaration)

def shelfText : String :=
  "\x7b\"declarations\": [\x7b\"name\": \"Shelf\", \"kind\": \"class\", \"fields\": [
    \x7b\"name\": \"items\", \"type\": \x7b\"kind\": \"parameterized\", \"name\": \"List\",
      \"params\": [\x7b\"name\": \"E\", \"bound\": null\x7d],
      \"args\": [\x7b\"kind\": \"named\", \"name\": \"Item\", \"args\": []\x7d]\x7d\x7d]\x7d],
  \"library\": []\x7d"

def shelfReversedText : String :=
  "\x7b\"declarations\":[
  \x7b\"fields\":[\x7b\"type\":\x7b\"args\":[\x7b\"name\":\"Item\",\"kind\":\"named\"\x7d],
  \"params\" :[ \x7b\"name\":\"E\"\x7d ],\"name\":\"List\",\"kind\":\"parameterized\"\x7d,
  \"name\":\"items\"\x7d],\"name\":\"Shelf\"\x7d
  ]\x7d "

theorem spells_shelf : shelf.Spells shelfText := by
  rw [Tree.spells_iff_scan, shelfText, String.toList_ofList]
  decide +kernel

theorem spells_shelfReversed : shelfReversed.Spells shelfReversedText := by
  rw [Tree.spells_iff_scan, shelfReversedText, String.toList_ofList]
  decide +kernel

def shelfUnit : CompilationUnit :=
  ofLists [{
    name := "Shelf"
    fields := [{
      name := "items"
      type := .generic .parameterized "List" [.free "E"] [.named "Item"] }] }] []

theorem load_rewritten_shelf : load shelfText = .ok shelfUnit ∧
    ∃ again, load shelfReversedText = .ok again ∧ again.own = shelfUnit.own ∧
      ∀ s, again.generate s = shelfUnit.generate s := by
  have hload : load shelfText = .ok shelfUnit := load_of_spells rfl rfl spells_shelf
  obtain ⟨again, hagain, hown, -, hgenerate⟩ := (load_rewritten shelfText shelfUnit hload).2 shelf
    shelfReversed shelfReversedText spells_shelf rewrites_shelf spells_shelfReversed
  exact ⟨hload, again, hagain, hown, hgenerate⟩

end Example

end CompilationUnit

end ActionWiring
