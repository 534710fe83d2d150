import ActionWiring.Proofs.FileChanges
import ActionWiring.Proofs.Lookups
import ActionWiring.Proofs.PlanContents
import ActionWiring.Proofs.Reloading
import ActionWiring.Proofs.TaskRuns

namespace ActionWiring

namespace Workspace

variable {w w' : Workspace} {model output source text path : String} {s : Settings}
  {place : Place} {content : Content}

def Generates (w : Workspace) (model : String) (s : Settings) (text : String) : Prop :=
  ∃ content source u, w.find model = .ok (.file content) ∧ content.size ≤ largestModel ∧
    content.text? = some source ∧ CompilationUnit.load source = .ok u ∧ u.generate s = .ok text

theorem size_of_find (h : w.find path = .ok (.file content)) : w.size path = .ok content.size := by
  rw [size, h]
  rfl

theorem read_eq_ok_iff :
    w.read path = .ok text ↔
      ∃ content, w.find path = .ok (.file content) ∧ content.text? = some text := by
  rw [read]
  cases w.find path with
  | error cause => simp
  | ok node =>
      cases node with
      | directory => simp
      | file content =>
          cases htext : content.text? with
          | none => simp [htext]
          | some current => simp [htext]

theorem modelText_eq_ok_iff :
    w.modelText path = .ok source ↔
      ∃ content, w.find path = .ok (.file content) ∧ content.size ≤ largestModel ∧
        content.text? = some source := by
  constructor
  · intro h
    obtain ⟨size, hsize, h⟩ := bind_eq_ok.1 h
    split at h
    · cases h
    · rename_i hlarge
      obtain ⟨content, hfind, htext⟩ := read_eq_ok_iff.1 (mapError_eq_ok.1 h)
      rw [size_of_find hfind] at hsize
      cases hsize
      exact ⟨content, hfind, Nat.not_lt.1 hlarge, htext⟩
  · rintro ⟨content, hfind, hsize, htext⟩
    refine bind_eq_ok.2 ⟨content.size, mapError_eq_ok.2 (size_of_find hfind), ?_⟩
    rw [if_neg (Nat.not_lt.2 hsize)]
    exact mapError_eq_ok.2 (read_eq_ok_iff.2 ⟨content, hfind, htext⟩)

theorem textFor_eq_ok_iff : w.textFor model s = .ok text ↔ w.Generates model s text := by
  rw [textFor, bind_eq_ok]
  simp only [unitOf, bind_eq_ok, mapError_eq_ok, modelText_eq_ok_iff]
  constructor
  · rintro ⟨u, ⟨source, ⟨content, hfind, hsize, htext⟩, hload⟩, hgenerate⟩
    exact ⟨content, source, u, hfind, hsize, htext, hload, hgenerate⟩
  · rintro ⟨content, source, u, hfind, hsize, htext, hload, hgenerate⟩
    exact ⟨u, ⟨source, ⟨content, hfind, hsize, htext⟩, hload⟩, hgenerate⟩

theorem comparison_ok_iff :
    (∃ shown, w.comparison model output text = .ok shown) ↔ w.read output = .ok text := by
  rw [comparison]
  cases w.read output with
  | error cause => simp
  | ok current =>
      by_cases h : current = text
      · simp [h]
      · simp [h]

theorem comparison_of_unreadable (h : ∀ current, w.read output ≠ .ok current) :
    w.comparison model output text = .error (.outOfDate output model) := by
  rw [comparison]
  split
  · rename_i current hread
    exact absurd hread (h current)
  · rfl

theorem failure?_mapError {ε ε' α : Type} (x : Except ε α) (f : ε → ε') :
    failure? (x.mapError f) = (failure? x).map f := by
  cases x with
  | error e => rfl
  | ok a => rfl

theorem failure?_listing (w : Workspace) (model : String) (s : Settings) :
    failure? (w.listing model s) = failure? (w.textFor model s) := by
  rw [listing, textFor]
  cases w.unitOf model with
  | error failure => rfl
  | ok u =>
      have hgenerate : failure? (u.generate s) = failure? (u.plan s) := failure?_bind_pure _ _
      have hlisting := failure?_bind_pure ((u.plan s).mapError (TaskFailure.notGenerated model))
        fun plans => String.join (plans.map fun p => p.summary ++ "\n")
      refine hlisting.trans ?_
      rw [failure?_mapError, ← hgenerate, ← failure?_mapError]
      rfl

theorem Rewritten.generates (h : w.Rewritten w' place content) (hmodel : w.locate model ≠ .ok place)
    (hgenerates : w.Generates model s text) : w'.Generates model s text := by
  obtain ⟨written, source, u, hfind, hrest⟩ := hgenerates
  exact ⟨written, source, u, h.find_other hfind hmodel, hrest⟩

theorem Rewritten.read_self (h : w.Rewritten w' place (.ofText text))
    (hlocate : w.locate output = .ok place) : w'.read output = .ok text :=
  read_eq_ok_iff.2 ⟨.ofText text, h.find_self hlocate, Content.text?_ofText text⟩

theorem check_ok_iff :
    (∃ shown, (w.carryOut (Task.generate model (some output) true s)).1 = .ok shown) ↔
      ∃ text, w.Generates model s text ∧ w.read output = .ok text := by
  rw [reads_generate_check model output s]
  simp only [bind_eq_ok, textFor_eq_ok_iff]
  constructor
  · rintro ⟨shown, text, hgenerates, hshown⟩
    exact ⟨text, hgenerates, comparison_ok_iff.1 ⟨shown, hshown⟩⟩
  · rintro ⟨text, hgenerates, hread⟩
    obtain ⟨shown, hshown⟩ := comparison_ok_iff.2 hread
    exact ⟨shown, text, hgenerates, hshown⟩

theorem write_ok_iff (writable : ∀ text, ∃ w', w.write output text = .ok w') :
    (∃ shown, (w.carryOut (Task.generate model (some output) false s)).1 = .ok shown) ↔
      ∃ text, w.Generates model s text := by
  simp only [← textFor_eq_ok_iff]
  cases htext : w.textFor model s with
  | error failure => rw [carryOut_generate_of_error htext]
  | ok text =>
      obtain ⟨w', hwrite⟩ := writable text
      rw [carryOut_generate_written htext hwrite]
      exact iff_of_true ⟨"", rfl⟩ ⟨text, rfl⟩

theorem generate_failed {output : Option String} {check : Bool} {failure : TaskFailure}
    (h : (w.carryOut (Task.generate model output check s)).1 = .error failure) :
    (w.carryOut (Task.generate model output check s)).2 = w := by
  cases htext : w.textFor model s with
  | error failure => rw [carryOut_generate_of_error htext]
  | ok text =>
      cases output with
      | none => rw [reads_generate_printed model check s]
      | some output =>
          cases check with
          | true => rw [reads_generate_check model output s]
          | false =>
              cases hwrite : w.write output text with
              | error cause => rw [carryOut_generate_unwritten htext hwrite]
              | ok w' =>
                  rw [carryOut_generate_written htext hwrite] at h
                  cases h

theorem generate_then_check (writable : ∀ text, ∃ w', w.write output text = .ok w')
    (hgenerates : w.Generates model s text) :
    ∃ w', w.carryOut (Task.generate model (some output) false s) = (.ok "", w') ∧
      w'.find output = .ok (.file (.ofText text)) ∧
      (∀ place, w.locate output ≠ .ok place → w'.node? place = w.node? place) ∧
      ((∀ place, w.locate model = .ok place → w.locate output ≠ .ok place) →
        ∃ shown, w'.carryOut (Task.generate model (some output) true s) = (.ok shown, w')) := by
  obtain ⟨w', hwrite⟩ := writable text
  obtain ⟨place, hplace, hrewritten⟩ := rewritten_of_write hwrite
  refine ⟨w', carryOut_generate_written (textFor_eq_ok_iff.2 hgenerates) hwrite,
    hrewritten.find_self hplace, fun other hother => ?_, fun apart => ?_⟩
  · refine hrewritten.others other ?_
    rintro rfl
    exact hother hplace
  · have hmodel : w.locate model ≠ .ok place := fun hlocate => apart place hlocate hplace
    obtain ⟨shown, hshown⟩ := check_ok_iff.2
      ⟨text, hrewritten.generates hmodel hgenerates, hrewritten.read_self hplace⟩
    rw [reads_generate_check model output s] at hshown ⊢
    exact ⟨shown, congrArg (Prod.mk · w') hshown⟩

theorem check_stale (hgenerates : w.Generates model s text)
    (absent : ∀ node, w.find output ≠ .ok node) :
    w.carryOut (Task.generate model (some output) true s) =
      (.error (.outOfDate output model), w) := by
  have hread : ∀ current, w.read output ≠ .ok current := by
    intro current hread
    obtain ⟨content, hfind, -⟩ := read_eq_ok_iff.1 hread
    exact absent _ hfind
  rw [reads_generate_check model output s, textFor_eq_ok_iff.2 hgenerates]
  exact congrArg (Prod.mk · w) (comparison_of_unreadable hread)

theorem generate_outcomes (w : Workspace) (model output : String) (s : Settings) :
    ((∀ text, ∃ w', w.write output text = .ok w') →
      ((∃ shown, (w.carryOut (Task.generate model (some output) false s)).1 = .ok shown) ↔
        ∃ text, w.Generates model s text) ∧
      ∀ text, w.Generates model s text →
        ∃ w', w.carryOut (Task.generate model (some output) false s) = (.ok "", w') ∧
          w'.find output = .ok (.file (.ofText text)) ∧
          (∀ place, w.locate output ≠ .ok place → w'.node? place = w.node? place) ∧
          ((∀ place, w.locate model = .ok place → w.locate output ≠ .ok place) →
            ∃ shown, w'.carryOut (Task.generate model (some output) true s) = (.ok shown, w'))) ∧
    ((w.carryOut (Task.generate model (some output) true s)).2 = w ∧
      ((∃ shown, (w.carryOut (Task.generate model (some output) true s)).1 = .ok shown) ↔
        ∃ text content, w.Generates model s text ∧ w.find output = .ok (.file content) ∧
          content.text? = some text) ∧
      ((∀ node, w.find output ≠ .ok node) → ∀ text, w.Generates model s text →
        w.carryOut (Task.generate model (some output) true s) =
          (.error (.outOfDate output model), w))) ∧
    (∀ output? check failure,
      (w.carryOut (Task.generate model output? check s)).1 = .error failure →
        (w.carryOut (Task.generate model output? check s)).2 = w) ∧
    (w.carryOut (Task.list model s)).2 = w ∧
    ∀ check, failure? (w.carryOut (Task.list model s)).1 =
      failure? (w.carryOut (Task.generate model none check s)).1 := by
  refine ⟨fun writable => ⟨write_ok_iff writable, fun text => generate_then_check writable⟩,
    ⟨?_, ?_, fun absent text hgenerates => check_stale hgenerates absent⟩,
    fun output? check failure => generate_failed, ?_, fun check => ?_⟩
  · rw [reads_generate_check model output s]
  · simp only [check_ok_iff, read_eq_ok_iff, exists_and_left]
  · rw [reads_list model s]
  · rw [reads_list model s, reads_generate_printed model check s]
    exact failure?_listing w model s

def sampleTree : Workspace where
  entries :=
    [(["app.json"], .file (.ofText (Document.ofUnit CompilationUnit.sampleUnit).text)),
      (["lib"], .directory)]

theorem load_sample :
    CompilationUnit.load (Document.ofUnit CompilationUnit.sampleUnit).text =
      .ok CompilationUnit.sampleUnit := by
  have hdepth : (Document.ofUnit CompilationUnit.sampleUnit).nesting ≤ 127 := by decide +kernel
  have hparse := CompilationUnit.parseUnit_written CompilationUnit.sampleUnit
  rw [Json.within_of_le hdepth] at hparse
  rw [CompilationUnit.load_of_parsed hparse]
  rfl

theorem generates_sample :
    ∃ text, sampleTree.Generates "app.json" {} text := by
  obtain ⟨text, htext⟩ := CompilationUnit.generate_ok_iff.2 ⟨_, CompilationUnit.plan_sampleUnit⟩
  have hlength : 4 * (Document.ofUnit CompilationUnit.sampleUnit).chars.length ≤ largestModel := by
    decide +kernel
  exact ⟨text, _, _, _, rfl, Nat.le_trans (Content.size_ofText_le _) hlength, Content.text?_ofText _,
    load_sample, htext⟩

theorem generate_outcomes_sample :
    (sampleTree.carryOut (Task.generate "app.json" (some "lib") false {})).2 = sampleTree ∧
    ∃ text w', sampleTree.Generates "app.json" {} text ∧
      sampleTree.carryOut (Task.generate "app.json" (some "lib/app.g.dart") true {}) =
        (.error (.outOfDate "lib/app.g.dart" "app.json"), sampleTree) ∧
      sampleTree.carryOut (Task.generate "app.json" (some "lib/app.g.dart") false {}) =
        (.ok "", w') ∧
      ∃ shown, w'.carryOut (Task.generate "app.json" (some "lib/app.g.dart") true {}) =
        (.ok shown, w') := by
  obtain ⟨text, hgenerates⟩ := generates_sample
  have hdirectory : sampleTree.write "lib" text = .error .isADirectory := rfl
  have hrefused := carryOut_generate_unwritten (textFor_eq_ok_iff.2 hgenerates) hdirectory
  have habsent : sampleTree.find "lib/app.g.dart" = .error .noSuchFile := rfl
  have hmodel : sampleTree.locate "app.json" = .ok ["app.json"] := rfl
  have houtput : sampleTree.locate "lib/app.g.dart" = .ok ["lib", "app.g.dart"] := rfl
  have apart : ∀ place, sampleTree.locate "app.json" = .ok place →
      sampleTree.locate "lib/app.g.dart" ≠ .ok place := by
    rw [hmodel, houtput]
    rintro place ⟨⟩
    decide
  obtain ⟨hwrite, ⟨-, -, hstale⟩, hfailed, -⟩ :=
    generate_outcomes sampleTree "app.json" "lib/app.g.dart" {}
  obtain ⟨w', hwritten, -, -, hagain⟩ := (hwrite fun _ => ⟨_, rfl⟩).2 text hgenerates
  refine ⟨hfailed (some "lib") false _ (congrArg Prod.fst hrefused), text, w', hgenerates,
    hstale ?_ text hgenerates, hwritten, hagain apart⟩
  rintro node hfind
  rw [habsent] at hfind
  cases hfind

end Workspace

end ActionWiring
