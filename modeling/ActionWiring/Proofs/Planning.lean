import ActionWiring.Plan.Layout
import ActionWiring.Proofs.Lookups
import ActionWiring.Proofs.TypeAlignment

namespace ActionWiring

theorem DartType.payload_eq_ok_iff {type : DartType} {payload : String} :
    type.payload = .ok payload ↔ ∃ texts, type.argumentTexts = .ok texts ∧
      (if texts = [] then "dynamic" else String.intercalate "," texts) = payload := by
  simp only [DartType.payload, bind_pure_eq_ok, List.isEmpty_iff, Dart.dynamic]

theorem DartType.payload_ok_iff {type : DartType} :
    (∃ payload, type.payload = .ok payload) ↔ type.WellAligned := by
  simp only [DartType.payload, bind_pure_ok_iff, DartType.argumentTexts_ok_iff]

theorem ActionEntry.ofField_eq_ok_iff {container : String} {f : Field} {e : ActionEntry} :
    ActionEntry.ofField container f = .ok e ↔ ∃ payload, f.type.payload = .ok payload ∧
      { name := f.name, payload, key := Naming.actionKey container f.name } = e := by
  simp only [ActionEntry.ofField, bind_pure_eq_ok, liftTypes_eq_ok]

theorem ActionEntry.ofField_ok_iff {container : String} {f : Field} :
    (∃ e, ActionEntry.ofField container f = .ok e) ↔ f.type.WellAligned := by
  simp only [ActionEntry.ofField, bind_pure_ok_iff, liftTypes_eq_ok, DartType.payload_ok_iff]

theorem NestedEntry.ofField_eq_ok_iff {f : Field} {e : NestedEntry} :
    NestedEntry.ofField f = .ok e ↔ ∃ typeName, f.type.render = .ok typeName ∧
      { name := f.name, typeName } = e := by
  simp only [NestedEntry.ofField, bind_pure_eq_ok, liftTypes_eq_ok]

theorem NestedEntry.ofField_ok_iff {f : Field} :
    (∃ e, NestedEntry.ofField f = .ok e) ↔ f.type.WellAligned := by
  simp only [NestedEntry.ofField, bind_pure_ok_iff, liftTypes_eq_ok, DartType.render_ok_iff]

namespace CompilationUnit

variable {u : CompilationUnit} {s : Settings} {d : Declaration}

theorem wiringSubclass_of_few {dispatchers : List ActionEntry} (few : d.constructors.length ≤ 1) :
    u.wiringSubclass s d dispatchers = .ok none := by
  rw [wiringSubclass, if_neg (Nat.not_lt.2 few)]

theorem wiringSubclass_eq_ok_iff {dispatchers : List ActionEntry}
    (many : 1 < d.constructors.length) {wiring : Option WiringSubclass} :
    u.wiringSubclass s d dispatchers = .ok wiring ↔ ∃ nested, u.nestedEntries s d = .ok nested ∧
      some { className := s.subclassName d.name
             baseName := d.name
             dispatcherType := s.dispatcherMarker
             dispatchers
             nested } = wiring := by
  rw [wiringSubclass, if_pos many, bind_pure_eq_ok]

theorem wiringSubclass_ok_iff {dispatchers : List ActionEntry} :
    (∃ wiring, u.wiringSubclass s d dispatchers = .ok wiring) ↔
      (1 < d.constructors.length → ∃ nested, u.nestedEntries s d = .ok nested) := by
  by_cases many : 1 < d.constructors.length
  · rw [wiringSubclass, if_pos many, bind_pure_ok_iff]
    exact ⟨fun h _ => h, fun h => h many⟩
  · rw [wiringSubclass_of_few (Nat.not_lt.1 many)]
    exact ⟨fun _ h => absurd h many, fun _ => ⟨none, rfl⟩⟩

theorem planFor_eq_ok_iff {p : ContainerPlan} :
    u.planFor s d = .ok p ↔ ∃ entries wiring, u.actionEntries s d = .ok entries ∧
      u.wiringSubclass s d entries = .ok wiring ∧
      { container := d.name, wiring, names := namesClass s d entries } = p := by
  rw [planFor, bind_eq_ok]
  simp only [bind_pure_eq_ok]
  constructor
  · rintro ⟨entries, he, wiring, hw, rfl⟩
    exact ⟨entries, wiring, he, hw, rfl⟩
  · rintro ⟨entries, wiring, he, hw, rfl⟩
    exact ⟨entries, he, wiring, hw, rfl⟩

theorem planFor_ok_iff :
    (∃ p, u.planFor s d = .ok p) ↔ (∃ entries, u.actionEntries s d = .ok entries) ∧
      (1 < d.constructors.length → ∃ nested, u.nestedEntries s d = .ok nested) := by
  simp only [planFor_eq_ok_iff]
  constructor
  · rintro ⟨p, entries, wiring, he, hw, -⟩
    exact ⟨⟨entries, he⟩, wiringSubclass_ok_iff.1 ⟨wiring, hw⟩⟩
  · rintro ⟨⟨entries, he⟩, hn⟩
    obtain ⟨wiring, hw⟩ := wiringSubclass_ok_iff.2 hn
    exact ⟨_, entries, wiring, he, hw, rfl⟩

theorem plan_eq_ok_iff {plans : List ContainerPlan} :
    u.plan s = .ok plans ↔ u.names.Nodup ∧ u.planAll s u.own = .ok plans := by
  simp only [plan, bind_eq_ok, liftDeclarations_eq_ok, ownDeclarations_eq_ok_iff]
  constructor
  · rintro ⟨_, ⟨distinct, rfl⟩, h⟩
    exact ⟨distinct, h⟩
  · rintro ⟨distinct, h⟩
    exact ⟨_, ⟨distinct, rfl⟩, h⟩

theorem generate_ok_iff :
    (∃ text, u.generate s = .ok text) ↔ ∃ plans, u.plan s = .ok plans :=
  bind_pure_ok_iff

end CompilationUnit

end ActionWiring
