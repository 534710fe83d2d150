import ActionWiring.Naming

namespace ActionWiring

inductive GenericForm where
  | parameterized
  | function
  deriving DecidableEq, Repr

mutual

inductive DartType where
  | named (name : String)
  | generic (form : GenericForm) (name : String) (params : List TypeParameter)
      (args : List DartType)
  | void
  | dynamic
  | unresolved

inductive TypeParameter where
  | free (name : String)
  | bounded (name : String) (bound : DartType)

end

namespace DartType

def name? : DartType → Option String
  | .named name => some name
  | .generic _ name _ _ => some name
  | .void | .dynamic | .unresolved => none

end DartType

namespace TypeParameter

def name : TypeParameter → String
  | .free name => name
  | .bounded name _ => name

def bound? : TypeParameter → Option DartType
  | .free _ => none
  | .bounded _ bound => some bound

end TypeParameter

inductive BoundRole where
  | value
  | builder
  | other
  deriving DecidableEq, Repr

namespace BoundRole

def ofName (name : String) : BoundRole :=
  if Naming.isValueBound name then .value
  else if Naming.isBuilderBound name then .builder
  else .other

def ofBound (bound : Option DartType) : BoundRole :=
  match bound.bind DartType.name? with
  | some name => ofName name
  | none => .other

end BoundRole

namespace BuilderSlots

def fillAt (roles : List BoundRole) (texts : List String) (i : Nat) : List String :=
  match roles[i]?, roles[i + 1]?, texts[i]?, texts[i + 1]? with
  | some .value, some .builder, some value, some slot =>
      if slot = Dart.dynamic then texts.set (i + 1) (Naming.builderName value) else texts
  | _, _, _, _ => texts

def fill (roles : List BoundRole) (texts : List String) : List String :=
  (List.range (texts.length - 1)).foldl (fillAt roles) texts

theorem length_fillAt (roles : List BoundRole) (texts : List String) (i : Nat) :
    (fillAt roles texts i).length = texts.length := by
  unfold fillAt
  split
  · split <;> simp
  · rfl

theorem length_fill (roles : List BoundRole) (texts : List String) :
    (fill roles texts).length = texts.length := by
  have steps : ∀ (is : List Nat) (ts : List String),
      (is.foldl (fillAt roles) ts).length = ts.length := by
    intro is
    induction is with
    | nil => intro ts; rfl
    | cons i is ih => intro ts; rw [List.foldl_cons, ih, length_fillAt]
  exact steps _ _

theorem fill_nil (texts : List String) : fill [] texts = texts := by
  have steps : ∀ is : List Nat, is.foldl (fillAt []) texts = texts := by
    intro is
    induction is with
    | nil => rfl
    | cons i is ih => simpa [List.foldl_cons, fillAt] using ih
  exact steps _

end BuilderSlots

structure Misalignment where
  typeName : String
  params : Nat
  args : Nat
  deriving DecidableEq, Repr

namespace DartType

def applied (name : String) (texts : List String) : String :=
  if texts.isEmpty then name
  else name ++ "<" ++ String.intercalate "," texts ++ ">"

def aligned (params : List TypeParameter) (args : List DartType) : Bool :=
  params.isEmpty || params.length == args.length

def roles (params : List TypeParameter) : List BoundRole :=
  params.map fun p => BoundRole.ofBound p.bound?

mutual

def render : DartType → Except Misalignment String
  | .named name => .ok name
  | .generic _ name params args =>
      if aligned params args then do
        let texts ← renderAll args
        return applied name (BuilderSlots.fill (roles params) texts)
      else .error ⟨name, params.length, args.length⟩
  | .void => .ok Dart.void
  | .dynamic => .ok Dart.dynamic
  | .unresolved => .ok Dart.dynamic

def renderAll : List DartType → Except Misalignment (List String)
  | [] => .ok []
  | type :: types => do
      let text ← render type
      let texts ← renderAll types
      return text :: texts

end

def boundedArgumentTexts (typeName : String) (bounds : List (Option DartType))
    (args : List DartType) : Except Misalignment (List String) :=
  if bounds.length = args.length then do
    let texts ← renderAll args
    return BuilderSlots.fill (bounds.map BoundRole.ofBound) texts
  else .error ⟨typeName, bounds.length, args.length⟩

def argumentTexts : DartType → Except Misalignment (List String)
  | .generic _ name params args =>
      if params.isEmpty then renderAll args
      else boundedArgumentTexts name (params.map TypeParameter.bound?) args
  | _ => .ok []

theorem argumentTexts_generic (form : GenericForm) (name : String) (params : List TypeParameter)
    (args : List DartType) :
    argumentTexts (.generic form name params args) =
      if aligned params args then (renderAll args).map (BuilderSlots.fill (roles params))
      else .error ⟨name, params.length, args.length⟩ := by
  have hroles : roles params = (params.map TypeParameter.bound?).map BoundRole.ofBound := by
    simp [roles, Function.comp_def]
  rw [hroles]
  cases params with
  | nil =>
      simp only [argumentTexts, aligned, List.isEmpty_nil, Bool.true_or, if_true, List.map_nil,
        funext BuilderSlots.fill_nil]
      cases renderAll args <;> rfl
  | cons p ps =>
      simp only [argumentTexts, boundedArgumentTexts, aligned, List.isEmpty_cons, Bool.false_or,
        beq_iff_eq, List.length_map, Bool.false_eq_true, if_false]
      split
      · cases renderAll args <;> rfl
      · rfl

theorem render_generic (form : GenericForm) (name : String) (params : List TypeParameter)
    (args : List DartType) :
    render (.generic form name params args) =
      (argumentTexts (.generic form name params args)).map (applied name) := by
  rw [argumentTexts_generic, render]
  split
  · cases renderAll args <;> rfl
  · rfl

end DartType

end ActionWiring
