import ActionWiring.Proofs.ArgumentPlaces
import ActionWiring.Proofs.BuilderPairs

namespace ActionWiring

theorem BuilderSlots.forall_mem_fill {roles : List BoundRole} {texts : List String}
    {P : String → Prop} (builder : ∀ value, P value → P (Naming.builderName value))
    (h : ∀ text ∈ texts, P text) : ∀ text ∈ fill roles texts, P text := by
  intro text htext
  obtain ⟨j, hj⟩ := List.mem_iff_getElem?.1 htext
  rw [getElem?_fill] at hj
  cases j with
  | zero => exact h text (List.mem_of_getElem? hj)
  | succ i =>
      rw [slotText] at hj
      split at hj
      · obtain ⟨value, hvalue, rfl⟩ := Option.map_eq_some_iff.1 hj
        exact builder value (h value (List.mem_of_getElem? hvalue))
      · exact h text (List.mem_of_getElem? hj)

namespace DartType

def names (type : DartType) : List String := type.nodes.filterMap name?

theorem mem_names_of_name? {type : DartType} {name : String} (h : type.name? = some name) :
    name ∈ type.names := by
  refine List.mem_filterMap.2 ⟨type, ?_, h⟩
  rw [nodes_eq]
  exact List.mem_cons_self

theorem mem_names_of_arguments {type arg : DartType} {name : String} (harg : arg ∈ type.arguments)
    (h : name ∈ arg.names) : name ∈ type.names := by
  obtain ⟨node, hnode, hname⟩ := List.mem_filterMap.1 h
  refine List.mem_filterMap.2 ⟨node, ?_, hname⟩
  rw [nodes_eq]
  exact List.mem_cons_of_mem _ (mem_nodesAll.2 ⟨arg, harg, hnode⟩)

theorem argumentTexts_generic_eq_ok_iff {form : GenericForm} {name : String}
    {params : List TypeParameter} {args : List DartType} {out : List String} :
    argumentTexts (.generic form name params args) = .ok out ↔
      aligned params args = true ∧ ∃ texts,
        List.Forall₂ (fun type text => type.render = .ok text) args texts ∧
        BuilderSlots.fill (roles params) texts = out := by
  rw [argumentTexts_generic]
  by_cases h : aligned params args = true
  · rw [if_pos h, map_eq_ok]
    simp only [h, renderAll_eq_ok_iff, true_and]
  · simp [h]

structure TextRule (word text : String → Prop) : Prop where
  ofName : ∀ name, word name → text name
  void : text Dart.void
  dynamic : text Dart.dynamic
  applied : ∀ name texts, word name → (∀ t ∈ texts, text t) → text (applied name texts)
  builder : ∀ value, text value → text (Naming.builderName value)

namespace TextRule

variable {W P : String → Prop} {type : DartType} {text : String} {texts : List String}

theorem of_arguments (rule : TextRule W P) (h : type.argumentTexts = .ok texts)
    (hargs : ∀ arg ∈ type.arguments, ∀ text, arg.render = .ok text → P text) :
    ∀ text ∈ texts, P text := by
  match type with
  | .named _ | .void | .dynamic | .unresolved =>
      cases h
      simp
  | .generic form name params args =>
      obtain ⟨-, plain, hplain, rfl⟩ := argumentTexts_generic_eq_ok_iff.1 h
      refine BuilderSlots.forall_mem_fill rule.builder fun text htext => ?_
      obtain ⟨arg, harg, hrender⟩ := exists_of_mem_right hplain htext
      exact hargs arg harg text hrender

theorem of_render (rule : TextRule W P) (h : type.render = .ok text)
    (hnames : ∀ name ∈ type.names, W name) : P text := by
  induction type using induction_arguments generalizing text with
  | step type ih =>
      match type with
      | .named name =>
          cases h
          exact rule.ofName text (hnames text (mem_names_of_name? rfl))
      | .void =>
          cases h
          exact rule.void
      | .dynamic | .unresolved =>
          cases h
          exact rule.dynamic
      | .generic form name params args =>
          rw [render_generic, map_eq_ok] at h
          obtain ⟨texts, htexts, rfl⟩ := h
          refine rule.applied name texts (hnames name (mem_names_of_name? rfl)) ?_
          refine rule.of_arguments htexts fun arg harg text htext => ih arg harg htext ?_
          exact fun name hname => hnames name (mem_names_of_arguments harg hname)

theorem of_argumentTexts (rule : TextRule W P) (h : type.argumentTexts = .ok texts)
    (hnames : ∀ name ∈ type.names, W name) : ∀ text ∈ texts, P text := by
  refine rule.of_arguments h fun arg harg text htext => rule.of_render htext ?_
  exact fun name hname => hnames name (mem_names_of_arguments harg hname)

end TextRule

end DartType

end ActionWiring
