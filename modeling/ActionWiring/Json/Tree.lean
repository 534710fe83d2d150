import ActionWiring.Json.Token

namespace ActionWiring.Json

inductive Tree where
  | absent
  | broken (fault : Fault)
  | brokenNumber (fault : Fault)
  | null
  | bool (value : Bool)
  | number (numeral : List Char)
  | string (raw : RawString)
  | array (items : List Tree) (fault : Option Fault)
  | object (members : List (Tree × Tree)) (fault : Option Fault)

inductive Frame where
  | array (items : List Tree)
  | object (members : List (Tree × Tree)) (key : Tree)

inductive Place where
  | atValue (frames : List Frame)
  | atFirstItem (frames : List Frame)
  | afterItem (items : List Tree) (frames : List Frame)
  | atFirstKey (frames : List Frame)
  | atKey (members : List (Tree × Tree)) (frames : List Frame)
  | atColon (members : List (Tree × Tree)) (key : Tree) (frames : List Frame)
  | afterMember (members : List (Tree × Tree)) (frames : List Frame)
  | complete (root : Tree)

structure Text where
  root : Tree
  trailing : Bool

namespace Place

def after (tree : Tree) : List Frame → Place
  | [] => .complete tree
  | .array items :: frames => .afterItem (tree :: items) frames
  | .object members key :: frames => .afterMember ((key, tree) :: members) frames

def cut (fault : Fault) (tree : Tree) : List Frame → Tree
  | [] => tree
  | .array items :: frames => cut fault (.array (tree :: items).reverse (some fault)) frames
  | .object members key :: frames =>
      cut fault (.object ((key, tree) :: members).reverse (some fault)) frames

abbrev Outcome := Except Tree Place

def beginValue (frames : List Frame) : Token → Outcome
  | .openArray => .ok (.atFirstItem frames)
  | .openObject => .ok (.atFirstKey frames)
  | .null => .ok (after .null frames)
  | .bool value => .ok (after (.bool value) frames)
  | .number numeral => .ok (after (.number numeral) frames)
  | .string ⟨pieces, none⟩ => .ok (after (.string ⟨pieces, none⟩) frames)
  | .string ⟨pieces, some fault⟩ => .error (cut fault (.string ⟨pieces, some fault⟩) frames)
  | .brokenNumber fault => .error (cut fault (.brokenNumber fault) frames)
  | .broken fault => .error (cut fault (.broken fault) frames)
  | .closeArray | .closeObject | .comma | .colon =>
      .error (cut .malformed (.broken .malformed) frames)

def strayKey : Token → Tree
  | .openArray => .array [] (some .malformed)
  | .openObject => .object [] (some .malformed)
  | .null => .null
  | .bool value => .bool value
  | .number numeral => .number numeral
  | .string raw => .string raw
  | .brokenNumber fault => .brokenNumber fault
  | .broken fault => .broken fault
  | .closeArray | .closeObject | .comma | .colon => .broken .malformed

def beginKey (members : List (Tree × Tree)) (frames : List Frame) : Token → Outcome
  | .string ⟨pieces, none⟩ => .ok (.atColon members (.string ⟨pieces, none⟩) frames)
  | token =>
      .error (cut .malformed (.broken .malformed) (.object members (strayKey token) :: frames))

def step (place : Place) (token : Token) : Outcome :=
  match place with
  | .atValue frames => beginValue frames token
  | .atFirstItem frames =>
      match token with
      | .closeArray => .ok (after (.array [] none) frames)
      | token => beginValue (.array [] :: frames) token
  | .afterItem items frames =>
      match token with
      | .comma => .ok (.atValue (.array items :: frames))
      | .closeArray => .ok (after (.array items.reverse none) frames)
      | _ => .error (cut .malformed (.array items.reverse (some .malformed)) frames)
  | .atFirstKey frames =>
      match token with
      | .closeObject => .ok (after (.object [] none) frames)
      | token => beginKey [] frames token
  | .atKey members frames => beginKey members frames token
  | .atColon members key frames =>
      match token with
      | .colon => .ok (.atValue (.object members key :: frames))
      | _ => .error (cut .malformed (.broken .malformed) (.object members key :: frames))
  | .afterMember members frames =>
      match token with
      | .comma => .ok (.atKey members frames)
      | .closeObject => .ok (after (.object members.reverse none) frames)
      | _ => .error (cut .malformed (.object members.reverse (some .malformed)) frames)
  | .complete root => .error root

def atEnd : Place → Tree
  | .atValue frames => cut .truncated .absent frames
  | .atFirstItem frames => cut .truncated (.array [] (some .truncated)) frames
  | .afterItem items frames => cut .truncated (.array items.reverse (some .truncated)) frames
  | .atFirstKey frames => cut .truncated (.object [] (some .truncated)) frames
  | .atKey members frames => cut .truncated .absent (.object members .absent :: frames)
  | .atColon members key frames => cut .truncated .absent (.object members key :: frames)
  | .afterMember members frames =>
      cut .truncated (.object members.reverse (some .truncated)) frames
  | .complete root => root

end Place

def grow : Place → List Token → Text
  | place, [] => ⟨place.atEnd, false⟩
  | .complete root, _ :: _ => ⟨root, true⟩
  | place, token :: tokens =>
      match place.step token with
      | .ok next => grow next tokens
      | .error root => ⟨root, false⟩

def Text.ofString (text : String) : Text := grow (.atValue []) (tokens text)

end ActionWiring.Json
