namespace ActionWiring

inductive Marker where
  | container
  | dispatcher
  | actionName
  | runtimeDispatcher
  deriving DecidableEq, Repr

namespace Marker

def spelling : Marker → String
  | .container => "ReduxActions"
  | .dispatcher => "ActionDispatcher"
  | .actionName => "ActionName"
  | .runtimeDispatcher => "Dispatcher"

def description : Marker → String
  | .container => "Supertype of every action container."
  | .dispatcher => "Field wrapper dispatching a typed payload under a stable key."
  | .actionName => "Typed identifier matching a dispatcher's key."
  | .runtimeDispatcher => "Store-side dispatcher injected into action containers."

def all : List Marker := [.container, .dispatcher, .actionName, .runtimeDispatcher]

theorem mem_all (m : Marker) : m ∈ all := by
  cases m <;> simp [all]

end Marker

namespace Naming

def beginsWith (head text : String) : Bool :=
  head.toList.isPrefixOf text.toList

theorem beginsWith_iff {head text : String} :
    beginsWith head text = true ↔ ∃ rest, text.toList = head.toList ++ rest := by
  simp only [beginsWith, List.isPrefixOf_iff_prefix]
  exact ⟨fun ⟨rest, h⟩ => ⟨rest, h.symm⟩, fun ⟨rest, h⟩ => ⟨rest, h.symm⟩⟩

theorem beginsWith_append (head rest : String) : beginsWith head (head ++ rest) = true :=
  beginsWith_iff.2 ⟨rest.toList, String.toList_append⟩

def generatedPrefix : String := "_$"

def setDispatcherMethod : String := "setDispatcher"

def dispatcherParameter : String := "dispatcher"

def namesClass (name : String) : String := name ++ "Names"

def actionKey (container field : String) : String := container ++ "-" ++ field

def isValueBound (bound : String) : Bool := beginsWith "Value" bound

def isBuilderBound (bound : String) : Bool := beginsWith "Builder" bound

def builderName (value : String) : String := value ++ "Builder"

theorem not_isBuilderBound_of_isValueBound {bound : String} (h : isValueBound bound = true) :
    isBuilderBound bound = false := by
  obtain ⟨rest, hrest⟩ := beginsWith_iff.1 h
  simp [isBuilderBound, beginsWith, hrest, List.isPrefixOf]

end Naming

namespace Dart

def dynamic : String := "dynamic"

def void : String := "void"

def overrideAnnotation : String := "@override"

def suppressedLints : List String :=
  ["avoid_classes_with_only_static_members", "annotate_overrides", "overridden_fields",
    "type_annotate_public_apis"]

def lintSuppressions : List String :=
  suppressedLints.map fun lint => "// ignore_for_file: " ++ lint

end Dart

end ActionWiring
