import ActionWiring.Proofs.TypeLikeness

namespace ActionWiring.DartType

variable {type type' : DartType} {m : Misalignment}

def FirstMisaligned (type : DartType) (m : Misalignment) : Prop :=
  ∃ place node, type.typeAt? place = some node ∧ node.Misaligned m ∧
    ∀ earlier < place, ∀ node', type.typeAt? earlier = some node' → ∀ m', ¬ node'.Misaligned m'

theorem firstAt_misalignment?_iff : FirstAt misalignment? type m ↔ type.FirstMisaligned m := by
  simp only [FirstAt, FirstMisaligned, misalignment?_eq_some_iff, misalignment?_eq_none_iff]

theorem render_eq_error_iff : type.render = .error m ↔ type.FirstMisaligned m := by
  rw [← failure?_eq_some_iff, failure?_render, findSome?_nodes_eq_some_iff,
    firstAt_misalignment?_iff]

theorem argumentTexts_eq_error_iff : type.argumentTexts = .error m ↔ type.FirstMisaligned m := by
  rw [← failure?_eq_some_iff, failure?_argumentTexts, findSome?_nodes_eq_some_iff,
    firstAt_misalignment?_iff]

theorem exists_firstMisaligned_iff :
    (∃ m, type.FirstMisaligned m) ↔
      ∃ place node m, type.typeAt? place = some node ∧ node.Misaligned m := by
  constructor
  · rintro ⟨m, place, node, hnode, hm, -⟩
    exact ⟨place, node, m, hnode, hm⟩
  · rintro ⟨place, node, m, hnode, hm⟩
    obtain ⟨first, hfirst⟩ := exists_findSome?_of_mem (mem_nodes_iff.2 ⟨place, hnode⟩)
      (misalignment?_eq_some_iff.2 hm)
    exact ⟨first, firstAt_misalignment?_iff.1 (findSome?_nodes_eq_some_iff.1 hfirst)⟩

theorem firstMisaligned_of_like {R : TypeParameter → TypeParameter → Prop}
    (h : Like R type type') : type'.FirstMisaligned m ↔ type.FirstMisaligned m := by
  rw [← firstAt_misalignment?_iff, ← firstAt_misalignment?_iff, ← findSome?_nodes_eq_some_iff,
    ← findSome?_nodes_eq_some_iff, findSome?_misalignment?_of_like h]

theorem render_without_params (form : GenericForm) (name : String) {args : List DartType}
    (hargs : ∀ arg ∈ args, ∃ text, arg.render = .ok text) :
    ∃ text, (DartType.generic form name [] args).render = .ok text := by
  cases h : (DartType.generic form name [] args).render with
  | ok text => exact ⟨text, rfl⟩
  | error m =>
      obtain ⟨place, node, hnode, hm, -⟩ := render_eq_error_iff.1 h
      cases place with
      | nil =>
          cases hnode
          obtain ⟨_, _, _, _, ⟨⟩, hne, -⟩ := hm
          exact absurd rfl hne
      | cons i place =>
          obtain ⟨arg, hi, hnode⟩ := typeAt?_cons_eq_some_iff.1 hnode
          obtain ⟨text, htext⟩ := hargs arg (List.mem_of_getElem? hi)
          obtain ⟨m', hm'⟩ := exists_firstMisaligned_iff.2 ⟨place, node, m, hnode, hm⟩
          rw [← render_eq_error_iff, htext] at hm'
          cases hm'

theorem texts_fail_first (type : DartType) :
    ((∃ m, type.render = .error m) ↔
      ∃ place node m, type.typeAt? place = some node ∧ node.Misaligned m) ∧
    ((∃ m, type.argumentTexts = .error m) ↔
      ∃ place node m, type.typeAt? place = some node ∧ node.Misaligned m) ∧
    (∀ m, type.render = .error m ↔ type.FirstMisaligned m) ∧
    (∀ m, type.argumentTexts = .error m ↔ type.FirstMisaligned m) ∧
    (∀ type', Like (fun _ _ => True) type type' → ∀ m,
      (type'.render = .error m ↔ type.render = .error m) ∧
      (type'.argumentTexts = .error m ↔ type.argumentTexts = .error m)) ∧
    ∀ form name args, (∀ arg ∈ args, ∃ text, arg.render = .ok text) →
      ∃ text, (DartType.generic form name [] args).render = .ok text := by
  refine ⟨?_, ?_, fun m => render_eq_error_iff, fun m => argumentTexts_eq_error_iff, ?_, ?_⟩
  · simp only [render_eq_error_iff, exists_firstMisaligned_iff]
  · simp only [argumentTexts_eq_error_iff, exists_firstMisaligned_iff]
  · intro type' h m
    simp only [render_eq_error_iff, argumentTexts_eq_error_iff, firstMisaligned_of_like h, and_self]
  · intro form name args hargs
    exact render_without_params form name hargs

def pairOfOne : DartType :=
  .generic .parameterized "Pair" [.free "A", .free "B"] [.named "int"]

def listOfPair : DartType := .generic .parameterized "List" [] [.void, pairOfOne]

def boxOf (content : DartType) : DartType :=
  .generic .function "Box" [.bounded "T" pairOfOne] [content]

theorem texts_fail_first_box :
    (boxOf listOfPair).FirstMisaligned ⟨"Pair", 2, 1⟩ ∧
      (∃ m, (boxOf listOfPair).argumentTexts = .error m) ∧
      Like (fun _ _ => True) (.generic .function "Box" [.free "T"] [.void]) (boxOf .void) ∧
      ∀ m, (boxOf .void).render ≠ .error m := by
  have hlike : Like (fun _ _ => True) (.generic .function "Box" [.free "T"] [.void])
      (boxOf .void) :=
    .generic (.cons trivial .nil) (.cons .void .nil)
  have hpair : pairOfOne.Misaligned ⟨"Pair", 2, 1⟩ :=
    ⟨_, _, _, _, rfl, List.cons_ne_nil _ _, by decide, rfl⟩
  obtain ⟨-, hargs, hfirst, -⟩ := texts_fail_first (boxOf listOfPair)
  obtain ⟨-, -, -, -, hbounds, -⟩ :=
    texts_fail_first (.generic .function "Box" [.free "T"] [.void])
  refine ⟨(hfirst _).1 rfl, hargs.2 ⟨[0, 1], pairOfOne, _, rfl, hpair⟩, hlike, ?_⟩
  intro m h
  cases ((hbounds _ hlike m).1).1 h

end ActionWiring.DartType
