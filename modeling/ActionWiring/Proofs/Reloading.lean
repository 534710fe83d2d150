import ActionWiring.Document.Reading
import ActionWiring.Proofs.Repeats
import ActionWiring.Proofs.WrittenRecords

namespace ActionWiring

open Document

namespace CompilationUnit

variable {own library : List Declaration} {name : String}

def listedAdditions (own library : List Declaration) : List (Origin × Declaration) :=
  library.map (Prod.mk .library) ++ own.map (Prod.mk .own)

theorem ofLists_eq_addEach (own library : List Declaration) :
    ofLists own library = empty.addEach (listedAdditions own library) := by
  rw [ofLists, addAll, addAll, addEach, listedAdditions, List.foldl_append, List.foldl_map,
    List.foldl_map]

theorem names_listedAdditions (own library : List Declaration) :
    ((listedAdditions own library).map fun a => a.2.name) =
      (library ++ own).map Declaration.name := by
  simp [listedAdditions, Function.comp_def]

theorem own_ofLists (own library : List Declaration) : (ofLists own library).own = own := by
  rw [ofLists_eq_addEach, own_addEach, listedAdditions, addedTo_append, addedTo_map, addedTo_map]
  rfl

theorem library_ofLists (own library : List Declaration) :
    (ofLists own library).library = library := by
  rw [ofLists_eq_addEach, library_addEach, listedAdditions, addedTo_append, addedTo_map,
    addedTo_map]
  exact List.append_nil library

theorem names_ofLists (u : CompilationUnit) : (ofLists u.own u.library).names = u.names := by
  rw [names, visible, own_ofLists, library_ofLists, ← visible, ← names]

theorem repeatedName_ofLists (h : FirstRepeat ((library ++ own).map Declaration.name) name) :
    (ofLists own library).repeatedName = some name := by
  rw [← names_listedAdditions] at h
  rw [ofLists_eq_addEach]
  exact repeatedName_of_firstRepeat h

theorem lookup_ofLists {u : CompilationUnit} (distinct : u.names.Nodup) (name : String) :
    (ofLists u.own u.library).lookup name = u.lookup name := by
  have hagain : (ofLists u.own u.library).names.Nodup := (names_ofLists u).symm ▸ distinct
  obtain ⟨found, hfound⟩ := lookup_ok distinct name
  have hfind := (lookup_eq_ok_iff.1 hfound).2
  rw [hfound, lookup_eq_ok_iff, visible, own_ofLists, library_ofLists]
  exact ⟨hagain, hfind⟩

theorem parseUnit_written (u : CompilationUnit) :
    parseUnit (ofUnit u).text =
      Json.within tooDeep (ofUnit u).nesting (ofLists u.own u.library) := by
  have hroot := read_unit u 0
  rw [Nat.zero_add] at hroot
  rw [parseUnit, readWhole, Json.Value.ofString_text _ (numberFree_ofUnit u)]
  exact Json.map_within hroot id

theorem load_of_parsed {source : String} {u : CompilationUnit} (h : parseUnit source = .ok u) :
    load source = u.check.mapError LoadError.model >>= fun _ => pure u := by
  rw [load, h]
  rfl

theorem load_written (u : CompilationUnit) :
    (127 < (ofUnit u).nesting →
      load (ofUnit u).text = .error (.document (.text .malformed))) ∧
    ((ofUnit u).nesting ≤ 127 → ¬ u.names.Nodup →
      (∃ name, FirstRepeat ((u.library ++ u.own).map Declaration.name) name) ∧
      ∀ name, FirstRepeat ((u.library ++ u.own).map Declaration.name) name →
        load (ofUnit u).text = .error (.model (.declaredTwice name))) ∧
    ((ofUnit u).nesting ≤ 127 → u.names.Nodup →
      ∃ v, load (ofUnit u).text = .ok v ∧ v.own = u.own ∧ v.library = u.library ∧
        (∀ name, v.lookup name = u.lookup name) ∧ (ofUnit v).text = (ofUnit u).text) := by
  have hparse := parseUnit_written u
  refine ⟨fun hdeep => ?_, fun hdepth hrepeat => ⟨?_, fun name hfirst => ?_⟩,
    fun hdepth distinct => ?_⟩
  · rw [Json.within_of_lt hdeep] at hparse
    rw [load, hparse]
    rfl
  · refine exists_firstRepeat fun hnodup => hrepeat ?_
    exact (List.perm_append_comm.map Declaration.name).nodup_iff.1 hnodup
  · rw [Json.within_of_le hdepth] at hparse
    rw [load_of_parsed hparse, check_of_repeatedName (repeatedName_ofLists hfirst)]
    rfl
  · rw [Json.within_of_le hdepth] at hparse
    have hcheck : (ofLists u.own u.library).check = .ok () :=
      check_eq_ok_iff.2 ((names_ofLists u).symm ▸ distinct)
    refine ⟨ofLists u.own u.library, ?_, own_ofLists _ _, library_ofLists _ _,
      lookup_ofLists distinct, ?_⟩
    · rw [load_of_parsed hparse, hcheck]
      rfl
    · rw [ofUnit, own_ofLists, library_ofLists, ← ofUnit]

def boxed : Nat → DartType
  | 0 => .dynamic
  | n + 1 => .generic .parameterized "Box" [.bounded "Value" .void] [boxed n]

def boxedUnit (n : Nat) : CompilationUnit :=
  ofLists [{ name := "Shelf", displayName? := some "\u0001\"", constructors := [{}]
             fields := [{ name := "content", type := boxed n }], supertypes := ["Base"] }]
    [{ name := "Base", kind := .mixinDecl }]

def crossedUnit : CompilationUnit :=
  ofLists [{ name := "App" }, { name := "Base" }, { name := "App" }] [{ name := "Base" }]

theorem load_written_boxed :
    load (ofUnit (boxedUnit 61)).text = .error (.document (.text .malformed)) ∧
    load (ofUnit crossedUnit).text = .error (.model (.declaredTwice "Base")) ∧
    ∃ v, load (ofUnit (boxedUnit 60)).text = .ok v ∧ v.own = (boxedUnit 60).own := by
  have hdeep : 127 < (ofUnit (boxedUnit 61)).nesting := by decide +kernel
  have hdepth : (ofUnit (boxedUnit 60)).nesting ≤ 127 := by decide +kernel
  have hcrossed : (ofUnit crossedUnit).nesting ≤ 127 := by decide +kernel
  have hrepeat : ¬ crossedUnit.names.Nodup := by decide
  have hdistinct : (boxedUnit 60).names.Nodup := by decide
  have hfirst : FirstRepeat ((crossedUnit.library ++ crossedUnit.own).map Declaration.name) "Base" :=
    ⟨["Base", "App"], ["App"], rfl, by decide, by decide⟩
  obtain ⟨v, hload, hown, -⟩ := (load_written (boxedUnit 60)).2.2 hdepth hdistinct
  exact ⟨(load_written (boxedUnit 61)).1 hdeep,
    ((load_written crossedUnit).2.1 hcrossed hrepeat).2 "Base" hfirst, v, hload, hown⟩

end CompilationUnit

end ActionWiring
