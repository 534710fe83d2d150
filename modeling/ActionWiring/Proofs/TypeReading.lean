import ActionWiring.Proofs.BracketNesting
import ActionWiring.Proofs.TextRules

namespace ActionWiring

theorem enclosed_of_plain {text : String} (h : Plain text) : Enclosed text := Nests.of_letters 0 h

def bracketed (texts : List String) : List Char :=
  if texts.isEmpty then [] else '<' :: ([','].intercalate (texts.map String.toList) ++ ['>'])

theorem toList_applied (name : String) (texts : List String) :
    (DartType.applied name texts).toList = name.toList ++ bracketed texts := by
  unfold DartType.applied bracketed
  split
  · simp
  · simp [String.toList_append, String.toList_intercalate]

theorem nests_bracketed {texts : List String} (h : ∀ text ∈ texts, Enclosed text) :
    Nests 0 (bracketed texts) 0 := by
  unfold bracketed
  split
  · exact .nil 0
  · exact .opening ((nests_intercalate (List.forall_mem_map.2 h)).append (.closing (.nil 0)))

theorem enclosed_applied {name : String} {texts : List String} (hname : Plain name)
    (h : ∀ text ∈ texts, Enclosed text) : Enclosed (DartType.applied name texts) := by
  rw [Enclosed, toList_applied]
  exact (enclosed_of_plain hname).append (nests_bracketed h)

theorem enclosed_builderName {value : String} (h : Enclosed value) :
    Enclosed (Naming.builderName value) := by
  rw [Enclosed, Naming.builderName, String.toList_append]
  exact h.append (enclosed_of_plain (by decide))

theorem enclosedRule : DartType.TextRule Plain Enclosed where
  ofName _ := enclosed_of_plain
  void := enclosed_of_plain (by decide)
  dynamic := enclosed_of_plain (by decide)
  applied _ _ := enclosed_applied
  builder _ := enclosed_builderName

theorem head?_bracketed {texts : List String} {c : Char} (h : c ∈ (bracketed texts).head?) :
    c = '<' := by
  unfold bracketed at h
  split at h
  · cases h
  · exact (Option.some.inj h).symm

theorem bracketed_inj {texts texts' : List String} (h : ∀ text ∈ texts, Enclosed text)
    (h' : ∀ text ∈ texts', Enclosed text) (heq : bracketed texts = bracketed texts') :
    texts = texts' := by
  cases texts with
  | nil =>
      cases texts' with
      | nil => rfl
      | cons text' texts' => cases heq
  | cons text texts =>
      cases texts' with
      | nil => cases heq
      | cons text' texts' =>
          have hjoined := List.append_cancel_right (List.cons.inj heq).2
          have hpieces := congrArg (outerPieces 0) hjoined
          rw [outerPieces_intercalate (by simp) (List.forall_mem_map.2 h),
            outerPieces_intercalate (by simp) (List.forall_mem_map.2 h')] at hpieces
          exact eq_of_map_eq_map (fun _ _ _ _ => String.toList_inj.1) hpieces

theorem append_inj_of_not_mem {c : Char} {as bs xs ys : List Char} (ha : c ∉ as) (hb : c ∉ bs)
    (hx : ∀ d ∈ xs.head?, d = c) (hy : ∀ d ∈ ys.head?, d = c) (h : as ++ xs = bs ++ ys) :
    as = bs ∧ xs = ys := by
  induction as generalizing bs with
  | nil =>
      cases bs with
      | nil => exact ⟨rfl, h⟩
      | cons b bs =>
          have hhead : b = c := hx b (by rw [← List.nil_append xs, h]; rfl)
          exact absurd List.mem_cons_self (hhead ▸ hb)
  | cons a as ih =>
      cases bs with
      | nil =>
          have hhead : a = c := hy a (by rw [← List.nil_append ys, ← h]; rfl)
          exact absurd List.mem_cons_self (hhead ▸ ha)
      | cons b bs =>
          rw [List.cons_append, List.cons_append, List.cons.injEq] at h
          rw [List.mem_cons, not_or] at ha hb
          obtain ⟨rfl, rfl⟩ := ih ha.2 hb.2 h.2
          exact ⟨by rw [h.1], rfl⟩

theorem applied_inj {name name' : String} {texts texts' : List String} (hname : Plain name)
    (hname' : Plain name') (h : ∀ text ∈ texts, Enclosed text)
    (h' : ∀ text ∈ texts', Enclosed text)
    (heq : DartType.applied name texts = DartType.applied name' texts') :
    name = name' ∧ texts = texts' := by
  rw [← String.toList_inj, toList_applied, toList_applied] at heq
  obtain ⟨hnames, htexts⟩ := append_inj_of_not_mem (fun hc => (hname _ hc).1 rfl)
    (fun hc => (hname' _ hc).1 rfl) (fun _ => head?_bracketed) (fun _ => head?_bracketed) heq
  exact ⟨String.toList_inj.1 hnames, bracketed_inj h h' htexts⟩

inductive TypeTree where
  | node (name : String) (args : List TypeTree)

namespace TypeTree

mutual

def text : TypeTree → String
  | .node name args => DartType.applied name (textAll args)

def textAll : List TypeTree → List String
  | [] => []
  | tree :: trees => text tree :: textAll trees

end

theorem text_node (name : String) (args : List TypeTree) :
    (node name args).text = DartType.applied name (args.map text) := by
  have hall : ∀ trees : List TypeTree, textAll trees = trees.map text := by
    intro trees
    induction trees with
    | nil => rfl
    | cons tree trees ih => rw [textAll, ih, List.map_cons]
  rw [text, hall]

inductive AllPlain : TypeTree → Prop
  | node {name : String} {args : List TypeTree} :
      Plain name → (∀ arg ∈ args, AllPlain arg) → AllPlain (.node name args)

theorem AllPlain.enclosed_text {tree : TypeTree} (h : tree.AllPlain) : Enclosed tree.text := by
  induction h with
  | node hname _ ih =>
      rw [text_node]
      exact enclosed_applied hname (List.forall_mem_map.2 ih)

theorem AllPlain.text_inj {tree tree' : TypeTree} (h : tree.AllPlain) (h' : tree'.AllPlain)
    (heq : tree.text = tree'.text) : tree = tree' := by
  induction h generalizing tree' with
  | @node name args hname hargs ih =>
      cases h' with
      | @node name' args' hname' hargs' =>
          rw [text_node, text_node] at heq
          obtain ⟨rfl, htexts⟩ := applied_inj hname hname'
            (List.forall_mem_map.2 fun arg harg => (hargs arg harg).enclosed_text)
            (List.forall_mem_map.2 fun arg harg => (hargs' arg harg).enclosed_text) heq
          rw [eq_of_map_eq_map (fun arg harg arg' harg' => ih arg harg (hargs' arg' harg')) htexts]

end TypeTree

namespace DartType

mutual

def tree : DartType → TypeTree
  | .named name => .node name []
  | .generic _ name _ args => .node name (treeAll args)
  | .void => .node "void" []
  | .dynamic => .node "dynamic" []
  | .unresolved => .node "dynamic" []

def treeAll : List DartType → List TypeTree
  | [] => []
  | type :: types => tree type :: treeAll types

end

theorem tree_generic (form : GenericForm) (name : String) (params : List TypeParameter)
    (args : List DartType) : (generic form name params args).tree = .node name (args.map tree) := by
  have hall : ∀ types : List DartType, treeAll types = types.map tree := by
    intro types
    induction types with
    | nil => rfl
    | cons type types ih => rw [treeAll, ih, List.map_cons]
  rw [tree, hall]

def Unfilled (type : DartType) : Prop :=
  ∀ form name params args, .generic form name params args ∈ type.nodes →
    ∀ j, BuilderSlots.Paired (params.map TypeParameter.bound?) j →
      ∀ slot, args[j + 1]? = some slot → slot.render ≠ .ok "dynamic"

theorem Unfilled.of_mem_arguments {type arg : DartType} (h : type.Unfilled)
    (harg : arg ∈ type.arguments) : arg.Unfilled := by
  intro form name params args hnode
  refine h form name params args ?_
  rw [nodes_eq]
  exact List.mem_cons_of_mem _ (mem_nodesAll.2 ⟨arg, harg, hnode⟩)

theorem unfilled_of_unbounded {type : DartType}
    (h : ∀ form name params args, .generic form name params args ∈ type.nodes →
      ∀ param ∈ params, param.bound? = none) : type.Unfilled := by
  rintro form name params args hnode j ⟨⟨bound, hbound, begins⟩, -⟩
  obtain ⟨param, hparam, rfl⟩ := List.mem_map.1 (List.mem_of_getElem? hbound)
  rw [h form name params args hnode param hparam] at begins
  obtain ⟨name, hname, -⟩ := begins
  cases hname

theorem fill_eq_self {roles : List BoundRole} {texts : List String}
    (h : ∀ j, BuilderSlots.pairAt roles j → texts[j + 1]? ≠ some Dart.dynamic) :
    BuilderSlots.fill roles texts = texts := by
  refine List.ext_getElem? fun j => ?_
  rw [BuilderSlots.getElem?_fill]
  cases j with
  | zero => rfl
  | succ j => rw [BuilderSlots.slotText, if_neg fun hc => h j hc.1 hc.2]

theorem Unfilled.fill_eq {form : GenericForm} {name : String} {params : List TypeParameter}
    {args : List DartType} {texts : List String} (h : (generic form name params args).Unfilled)
    (htexts : List.Forall₂ (fun type text => type.render = .ok text) args texts) :
    BuilderSlots.fill (roles params) texts = texts := by
  refine fill_eq_self fun j hpair hslot => ?_
  have hroles : roles params = (params.map TypeParameter.bound?).map BoundRole.ofBound := by
    simp [roles, Function.comp_def]
  rw [hroles, BuilderSlots.pairAt_map_iff] at hpair
  obtain ⟨slot, harg, hrender⟩ := exists_getElem?_of_forall₂ htexts hslot
  exact h form name params args List.mem_cons_self j hpair slot harg hrender

theorem render_of_unfilled {type : DartType} {text : String} (h : type.render = .ok text)
    (unfilled : type.Unfilled) : text = type.tree.text := by
  induction type using induction_arguments generalizing text with
  | step type ih =>
      match type with
      | .named name =>
          cases h
          rfl
      | .void =>
          cases h
          rfl
      | .dynamic | .unresolved =>
          cases h
          rfl
      | .generic form name params args =>
          rw [render_generic, map_eq_ok] at h
          obtain ⟨out, hout, rfl⟩ := h
          obtain ⟨-, texts, htexts, rfl⟩ := argumentTexts_generic_eq_ok_iff.1 hout
          have htrees : List.Forall₂ (fun arg text => text = arg.tree.text) args texts :=
            forall₂_of_mem htexts fun arg harg _ hrender =>
              ih arg harg hrender (unfilled.of_mem_arguments harg)
          rw [forall₂_iff_eq_map (fun _ _ _ => Iff.rfl)] at htrees
          rw [unfilled.fill_eq htexts, htrees, tree_generic, TypeTree.text_node, List.map_map]
          rfl

theorem allPlain_tree {type : DartType} (h : ∀ name ∈ type.names, Plain name) :
    type.tree.AllPlain := by
  induction type using induction_arguments with
  | step type ih =>
      match type with
      | .named name => exact .node (h name (mem_names_of_name? rfl)) (by simp)
      | .void => exact .node (by decide) (by simp)
      | .dynamic | .unresolved => exact .node (by decide) (by simp)
      | .generic form name params args =>
          rw [tree_generic]
          refine .node (h name (mem_names_of_name? rfl)) (List.forall_mem_map.2 fun arg harg => ?_)
          exact ih arg harg fun name hname => h name (mem_names_of_arguments harg hname)

theorem text_eq_iff_tree_eq {type type' : DartType} {text text' : String}
    (h : type.render = .ok text) (h' : type'.render = .ok text')
    (plain : ∀ name ∈ type.names, Plain name) (plain' : ∀ name ∈ type'.names, Plain name)
    (unfilled : type.Unfilled) (unfilled' : type'.Unfilled) :
    text = text' ↔ type.tree = type'.tree := by
  rw [render_of_unfilled h unfilled, render_of_unfilled h' unfilled']
  constructor
  · exact (allPlain_tree plain).text_inj (allPlain_tree plain')
  · intro heq
    rw [heq]

-- The first two parts hold of filled slots as well. The last has to leave them out: a filled slot
-- reads like a type of the name that was written there.
theorem texts_readable (type : DartType) (text : String) (written : type.render = .ok text)
    (plain : ∀ name ∈ type.names, Plain name) :
    Balanced text.toList ∧
    (∃ texts, type.argumentTexts = .ok texts ∧
      (texts ≠ [] → splitOutside (String.intercalate "," texts) = texts)) ∧
    ∀ (type' : DartType) (text' : String), type'.render = .ok text' →
      (∀ name ∈ type'.names, Plain name) → type.Unfilled → type'.Unfilled →
      (text = text' ↔ type.tree = type'.tree) := by
  refine ⟨(enclosedRule.of_render written plain).balanced, ?_, ?_⟩
  · obtain ⟨texts, htexts⟩ := argumentTexts_ok_iff.2 (render_ok_iff.1 ⟨text, written⟩)
    exact ⟨texts, htexts, fun hne =>
      splitOutside_intercalate hne (enclosedRule.of_argumentTexts htexts plain)⟩
  · intro type' text' written' plain' unfilled unfilled'
    exact text_eq_iff_tree_eq written written' plain plain' unfilled unfilled'

def shelf : DartType :=
  .generic .parameterized "Shelf" [.bounded "V" (.named "Value"), .bounded "B" (.named "Builder")]
    [.generic .parameterized "List" [] [.named "Foo"], .unresolved]

def lookup : DartType :=
  .generic .parameterized "Map" [.free "K", .free "V"] [.named "Foo", .unresolved]

def lookupAlias : DartType :=
  .generic .function "Map" [] [.generic .parameterized "Foo" [] [], .dynamic]

theorem texts_readable_shelf :
    Balanced "Shelf<List<Foo>,List<Foo>Builder>".toList ∧
      splitOutside "List<Foo>,List<Foo>Builder" = ["List<Foo>", "List<Foo>Builder"] ∧
      lookup.tree = lookupAlias.tree := by
  obtain ⟨balanced, ⟨texts, htexts, hsplit⟩, -⟩ :=
    texts_readable shelf "Shelf<List<Foo>,List<Foo>Builder>" (by decide) (by decide)
  have hshelf : shelf.argumentTexts = .ok ["List<Foo>", "List<Foo>Builder"] := by decide
  obtain rfl := Except.ok.inj (htexts.symm.trans hshelf)
  have hlookup : lookup.Unfilled := by
    refine unfilled_of_unbounded fun form name params args hnode => ?_
    simp only [lookup, nodes, nodesAll, List.append_nil, List.mem_cons, List.mem_append,
      generic.injEq, reduceCtorEq, List.not_mem_nil, or_false] at hnode
    obtain ⟨-, -, rfl, -⟩ := hnode
    decide
  have halias : lookupAlias.Unfilled := by
    refine unfilled_of_unbounded fun form name params args hnode => ?_
    simp only [lookupAlias, nodes, nodesAll, List.append_nil, List.mem_cons, List.mem_append,
      generic.injEq, reduceCtorEq, List.not_mem_nil, or_false] at hnode
    rcases hnode with ⟨-, -, rfl, -⟩ | ⟨-, -, rfl, -⟩
    · simp
    · simp
  have htrees := (texts_readable lookup "Map<Foo,dynamic>" (by decide) (by decide)).2.2 lookupAlias
    "Map<Foo,dynamic>" (by decide) (by decide) hlookup halias
  exact ⟨balanced, hsplit (by decide), htrees.1 rfl⟩

end DartType

end ActionWiring
