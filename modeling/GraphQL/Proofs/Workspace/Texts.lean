import Mathlib.Logic.Function.Basic
import GraphQL.Proofs.Workspace.Invalidation

/-! # Texts under keys

An edit invalidates documents under other keys, but it changes the text under its own key only. The
syntax errors of a document are read off its text alone, and nothing changes them later. So behind
every run each key has the text that was put there last, with the errors of that text:

* `run_texts` tells the texts by the steps,
* `run_diagnostics` tells the errors by the text. -/

namespace GraphQL

set_option autoImplicit false

/-- The syntax errors of a document are those of its text. -/
def OpenDocument.Diagnosed (d : OpenDocument) : Prop :=
  d.diagnostics = (parse d.source d.text).diagnostics

namespace Workspace

variable {past : Index → Prop} {w : Workspace}

/-! ## Documents under other keys -/

theorem Consistent.document_add_of_ne (h : w.Consistent) (coherent : w.Coherent past)
    {key k : Text} (text : Text) (isBuiltin : Bool) (other : k ≠ key) :
    (w.add key text isBuiltin).1.document? k = w.document? k := by
  have after := h.add coherent key text isBuiltin
  ext d
  rw [after.document_eq_some_iff (coherent.add key text isBuiltin), h.document_eq_some_iff coherent]
  show d ∈ putDocument (w.addedDocument key text isBuiltin) w.documents ∧ d.key = k ↔ _
  rw [mem_putDocument_iff]
  constructor
  · rintro ⟨rfl | ⟨hd, -⟩, rfl⟩
    · exact absurd rfl other
    · exact ⟨hd, rfl⟩
  · rintro ⟨hd, rfl⟩
    exact ⟨.inr ⟨hd, fun same => other ((h.source_eq_intern hd).1 same)⟩, rfl⟩

theorem Consistent.document_remove (h : w.Consistent) (coherent : w.Coherent past) (key k : Text) :
    (w.remove key).1.document? k = if k = key then none else w.document? k := by
  have after := h.remove coherent key
  ext d
  rw [after.document_eq_some_iff (coherent.remove key)]
  rcases w.remove_cases key with ⟨absent, eq⟩ | ⟨document, found, eq⟩
  · rw [eq, ← h.document_eq_some_iff coherent]
    split
    · next same => rw [same, absent]
    · rfl
  · obtain ⟨hdoc, rfl⟩ := (h.document_eq_some_iff coherent).1 found
    rw [eq]
    show d ∈ (w.without document.source).documents ∧ d.key = k ↔ _
    rw [mem_without]
    split
    · next same =>
      subst same
      refine iff_of_false ?_ (by simp)
      rintro ⟨⟨hd, other⟩, same⟩
      exact other ((h.source_of_key hd (h.filed document hdoc)).2 same)
    · next other =>
      rw [h.document_eq_some_iff coherent]
      refine and_congr_left fun same => and_iff_left_of_imp fun hd eq => other ?_
      rw [← same, (h.source_of_key hd (h.filed document hdoc)).1 eq]

/-! ## Texts -/

/-- The text that stands under a key. -/
def text? (w : Workspace) (key : Text) : Option Text := (w.document? key).map OpenDocument.text

/-- The texts under all keys behind a step. -/
def Step.putTexts (texts : Text → Option Text) : Step → Text → Option Text
  | .add key text _ => Function.update texts key (some text)
  | .replace key text _ => Function.update texts key (some text)
  | .remove key => Function.update texts key none
  | .rebuild => texts

theorem Consistent.text_add (h : w.Consistent) (coherent : w.Coherent past) (key text : Text)
    (isBuiltin : Bool) :
    (w.add key text isBuiltin).1.text? = Function.update w.text? key (some text) := by
  funext k
  by_cases same : k = key
  · subst same
    rw [Function.update_self, text?, coherent.document_add]
    rfl
  · rw [Function.update_of_ne same, text?, h.document_add_of_ne coherent text isBuiltin same]
    rfl

theorem Consistent.text_remove (h : w.Consistent) (coherent : w.Coherent past) (key : Text) :
    (w.remove key).1.text? = Function.update w.text? key none := by
  funext k
  rw [text?, h.document_remove coherent]
  by_cases same : k = key
  · rw [if_pos same, same, Function.update_self, Option.map_none]
  · rw [if_neg same, Function.update_of_ne same]
    rfl

/-- A step changes the text under its own key only. -/
theorem Consistent.text_step (h : w.Consistent) (coherent : w.Coherent past) (step : Step) :
    (w.step step).text? = step.putTexts w.text? := by
  cases step with
  | add key text isBuiltin => exact h.text_add coherent key text isBuiltin
  | replace key text isBuiltin => exact h.text_add coherent key text isBuiltin
  | remove key => exact h.text_remove coherent key
  | rebuild => rfl

/-- Under each key stands what the steps of a run put there last. -/
theorem run_texts (builtins : Bool) (steps : List Step) :
    ((opened builtins).run steps).text? =
      steps.foldl (fun texts step => step.putTexts texts) (opened builtins).text? := by
  induction steps using List.reverseRecOn with
  | nil => rfl
  | append_singleton steps step ih =>
    have consistent := opened_run_consistent builtins steps
    rw [run_append, consistent.text_step (run_coherent builtins steps), ih, List.foldl_append]
    rfl

/-! ## Errors -/

theorem diagnosed_add (h : ∀ d ∈ w.documents, d.Diagnosed) (key text : Text) (isBuiltin : Bool) :
    ∀ d ∈ (w.add key text isBuiltin).1.documents, d.Diagnosed := by
  intro d hd
  have put : d ∈ putDocument (w.addedDocument key text isBuiltin) w.documents := hd
  rcases mem_putDocument put with rfl | ⟨hd, -⟩
  · rfl
  · exact h d hd

theorem diagnosed_step (h : ∀ d ∈ w.documents, d.Diagnosed) (step : Step) :
    ∀ d ∈ (w.step step).documents, d.Diagnosed := by
  cases step with
  | add key text isBuiltin => exact diagnosed_add h key text isBuiltin
  | replace key text isBuiltin => exact diagnosed_add h key text isBuiltin
  | remove key =>
    show ∀ d ∈ (w.remove key).1.documents, d.Diagnosed
    rcases w.remove_cases key with ⟨-, eq⟩ | ⟨document, -, eq⟩
    · rwa [eq]
    · rw [eq]
      exact fun d hd => h d (mem_without.1 hd).1
  | rebuild => exact h

theorem opened_diagnosed (builtins : Bool) : ∀ d ∈ (opened builtins).documents, d.Diagnosed := by
  have empty : ∀ d ∈ ({} : Workspace).documents, d.Diagnosed := fun _ hd => nomatch hd
  cases builtins with
  | false => exact empty
  | true => exact diagnosed_step (diagnosed_add empty Builtins.key Builtins.text true) .rebuild

theorem run_diagnosed (builtins : Bool) (steps : List Step) :
    ∀ d ∈ ((opened builtins).run steps).documents, d.Diagnosed := by
  induction steps using List.reverseRecOn with
  | nil => exact opened_diagnosed builtins
  | append_singleton steps step ih =>
    rw [run_append]
    exact diagnosed_step ih step

/-- Behind a run the errors under a key are those of the text that stands there. -/
theorem run_diagnostics (builtins : Bool) (steps : List Step) {key text : Text}
    (stands : ((opened builtins).run steps).text? key = some text) :
    ∃ source : Nat, ((opened builtins).run steps).diagnostics key =
      (parse source text).diagnostics := by
  obtain ⟨d, found, rfl⟩ := Option.map_eq_some_iff.1 stands
  have there := ((opened_run_consistent builtins steps).document_eq_some_iff
    (run_coherent builtins steps)).1 found
  refine ⟨d.source, ?_⟩
  rw [diagnostics, found, Option.map_some, Option.getD_some]
  exact run_diagnosed builtins steps d there.1

end Workspace

end GraphQL
