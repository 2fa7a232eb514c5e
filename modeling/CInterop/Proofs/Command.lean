import CInterop.Command
import CInterop.Proofs.Files

/-!
# A run writes all or nothing

A run that ends well has written one file, with the whole text that it made, and any other run has
changed none. Failures before there is a text and errors that were reported keep a run from writing at
all; a failure of writing itself leaves no trace in the files.
-/

namespace CInterop.Command

open CommandLine (Invocation)
open FrontEnd (Translation)

variable {invocation : Invocation} {directory product output : String} {files : Files}
  {translation : Translation} {marks : List Files.Mark} {elsewhere : Elsewhere} {d : Draft}

/-- A text is the whole of what a command makes: the document of the tree that was extracted, the source of
the bindings of a document, or what comes of a document that is not worked on here. -/
def IsWhole (directory : String) (files : Files) (translation : Translation) (elsewhere : Elsewhere)
    (text : String) : Invocation → Prop
  | .extract e => ∃ tree,
    (Extraction.run e.options directory (files.read? directory e.options.header).isSome
      translation).tree = .ok tree ∧ text = Document.write tree
  | .bind b =>
    (∃ s bindings, setting b directory files = .ok (some s) ∧ (Mapping.run s).bindings = .ok bindings ∧
      text = bindings.source ⟨b.library, b.namespaceName, some s.tree.file⟩) ∨
    (setting b directory files = .ok none ∧
      (elsewhere b directory files).text = .ok (.encodable text))

/-- The text of a draft is whole. -/
theorem isWhole_draft {text : String}
    (h : (draft invocation directory files translation elsewhere).text = .ok (.encodable text)) :
    IsWhole directory files translation elsewhere text invocation := by
  cases invocation with
  | extract e =>
    change (Extraction.run _ _ _ _).tree.map _ = _ at h
    cases htree : (Extraction.run e.options directory
        (files.read? directory e.options.header).isSome translation).tree with
    | error failure =>
      rw [htree] at h
      cases h
    | ok tree =>
      rw [htree] at h
      cases h
      exact ⟨tree, htree, rfl⟩
  | bind b =>
    change (draftBindings b directory files elsewhere).text = _ at h
    unfold draftBindings at h
    cases hsetting : setting b directory files with
    | error failure =>
      rw [hsetting] at h
      cases h
    | ok found =>
      rw [hsetting] at h
      cases found with
      | none => exact .inr ⟨hsetting, h⟩
      | some s =>
        change (Mapping.run s).bindings.map _ = _ at h
        cases hbindings : (Mapping.run s).bindings with
        | error failure =>
          rw [hbindings] at h
          cases h
        | ok bindings =>
          rw [hbindings] at h
          cases h
          exact .inl ⟨s, bindings, hsetting, hbindings, rfl⟩

theorem hasErrors_eq_false {diagnostics : List Diagnostic} :
    Diagnostic.hasErrors diagnostics = false ↔ ∀ x ∈ diagnostics, x.severity ≠ .error := by
  simp [Diagnostic.hasErrors]

/-! ## The end of a run -/

/-- How a run can come to its end, with what was made and the files there were. -/
inductive Concluded (d : Draft) (output directory : String) (files : Files) (marks : List Files.Mark)
    (o : Outcome) : Prop where
  /-- There is no text. -/
  | failed (failure : Failure) (text : d.text = .error failure) (ending : o.ending ≠ .exit 0)
      (unchanged : o.files = files)
  /-- There is a text, but errors were reported. -/
  | refused (text : Files.Content) (made : d.text = .ok text)
      (errors : Diagnostic.hasErrors d.diagnostics = true) (ending : o.ending ≠ .exit 0)
      (unchanged : o.files = files)
  /-- The text could not be written. -/
  | unwritten (text : Files.Content) (made : d.text = .ok text)
      (noErrors : Diagnostic.hasErrors d.diagnostics = false) (fault : Fault)
      (wrote : Files.write directory output text marks files = .error fault o.files)
      (ending : o.ending ≠ .exit 0)
  | written (text : Files.Content) (made : d.text = .ok text)
      (noErrors : Diagnostic.hasErrors d.diagnostics = false)
      (wrote : Files.write directory output text marks files = .ok () o.files)
      (ending : o.ending = .exit 0)

theorem concluded :
    Concluded d output directory files marks (d.conclude product output directory files marks) := by
  unfold Draft.conclude
  cases htext : d.text with
  | error failure =>
    cases failure with
    | fault fault => exact .failed _ htext (by simp) rfl
    | _ => exact .failed _ htext (by simp) rfl
  | ok text =>
    cases herrors : Diagnostic.hasErrors d.diagnostics with
    | true =>
      have hstore : d.store text output directory marks files = .ok () files := by
        unfold Draft.store
        rw [if_pos herrors]
        rfl
      have hfinish : (d.finish product output directory files).ending = .exit 1 ∧
          (d.finish product output directory files).files = files := by
        unfold Draft.finish
        rw [if_pos herrors]
        exact ⟨rfl, rfl⟩
      simp only [hstore]
      exact .refused text htext herrors (by simp [hfinish.1]) hfinish.2
    | false =>
      have hstore : d.store text output directory marks files =
          Files.write directory output text marks files := by
        unfold Draft.store
        rw [if_neg (by simp [herrors])]
      simp only [hstore]
      cases hwrite : Files.write directory output text marks files with
      | error fault left => exact .unwritten text htext herrors fault hwrite (by simp)
      | ok _ left =>
        have hfinish : (d.finish product output directory left).ending = .exit 0 ∧
            (d.finish product output directory left).files = left := by
          unfold Draft.finish
          rw [if_neg (by simp [herrors])]
          exact ⟨rfl, rfl⟩
        refine .written text htext herrors ?_ hfinish.1
        rw [hwrite, hfinish.2]

theorem texts_of_concluded {o : Outcome} (h : Concluded d output directory files marks o)
    (hending : o.ending ≠ .exit 0) : o.files.texts = files.texts := by
  cases h with
  | failed _ _ _ unchanged => rw [unchanged]
  | refused _ _ _ _ unchanged => rw [unchanged]
  | unwritten _ _ _ _ wrote => exact Files.write_eq_error wrote
  | written _ _ _ _ ending => exact absurd ending hending

/-- A run ends well just where nothing fails, from making the text to writing it, and no error was
reported. -/
theorem ending_iff_of_concluded {o : Outcome} (h : Concluded d output directory files marks o) :
    o.ending = .exit 0 ↔
      (∀ failure, d.text ≠ .error failure) ∧ Diagnostic.hasErrors d.diagnostics = false ∧
      ∀ text fault left, d.text = .ok text →
        Files.write directory output text marks files ≠ .error fault left := by
  cases h with
  | failed failure text ending _ =>
    refine ⟨fun h => absurd h ending, fun h => absurd text (h.1 failure)⟩
  | refused text made errors ending _ =>
    refine ⟨fun h => absurd h ending, ?_⟩
    rintro ⟨-, hnone, -⟩
    rw [errors] at hnone
    cases hnone
  | unwritten text made noErrors fault wrote ending =>
    exact ⟨fun h => absurd h ending, fun h => absurd wrote (h.2.2 _ _ _ made)⟩
  | written text made noErrors wrote ending =>
    refine ⟨fun _ => ⟨?_, noErrors, ?_⟩, fun _ => ending⟩
    · intro failure hfailure
      rw [made] at hfailure
      cases hfailure
    · intro text' fault left hmade hwrite
      rw [made] at hmade
      cases hmade
      rw [wrote] at hwrite
      cases hwrite

/-- An empty header, what an interrupted run has left behind, and a document that is the first half of a
surrogate pair. -/
def headerFiles : Files :=
  ⟨[("/home/x.h", ""), ("/home/out/.tmp-aat.json", ""), ("/home/half.json", "\"\\ud800\"")], ["/home"]⟩

/-- A document that makes a text without bytes. -/
def halves : Elsewhere := fun _ _ _ => { text := .ok .unencodable }

end CInterop.Command
