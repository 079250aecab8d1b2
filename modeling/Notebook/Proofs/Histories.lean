import Mathlib
/-!
# Histories

A history is a list of events, the newest first. What was begun by an event and kept by all that came
after it is told by the newest event and by the history before that.
-/
namespace Notebook

variable {Event : Type} {begins : Event → List Event → Prop} {keeps : Event → Prop}
  {past : List Event}

/-- Something was begun by an event, and every event since kept it. Whether it was begun may depend on
what was before. -/
def Since (begins : Event → List Event → Prop) (keeps : Event → Prop) (past : List Event) : Prop :=
  ∃ since event earlier, past = since ++ event :: earlier ∧ begins event earlier ∧
    ∀ later ∈ since, keeps later

theorem since_nil (begins : Event → List Event → Prop) (keeps : Event → Prop) :
    ¬Since begins keeps [] := by
  rintro ⟨since, event, earlier, split, -⟩
  simp at split

theorem since_cons {event : Event} :
    Since begins keeps (event :: past) ↔ begins event past ∨ Since begins keeps past ∧ keeps event := by
  constructor
  · rintro ⟨since, first, earlier, split, began, kept⟩
    cases since with
    | nil =>
      cases split
      exact .inl began
    | cons last since =>
      cases split
      obtain ⟨here, kept⟩ := List.forall_mem_cons.mp kept
      exact .inr ⟨⟨since, first, earlier, rfl, began, kept⟩, here⟩
  · rintro (began | ⟨⟨since, first, earlier, rfl, began, kept⟩, here⟩)
    · exact ⟨[], event, past, rfl, began, List.forall_mem_nil _⟩
    · exact ⟨event :: since, first, earlier, rfl, began, List.forall_mem_cons.mpr ⟨here, kept⟩⟩

theorem Since.append {since : List Event} (began : Since begins keeps past)
    (kept : ∀ later ∈ since, keeps later) : Since begins keeps (since ++ past) := by
  obtain ⟨first, event, earlier, rfl, began, still⟩ := began
  exact ⟨since ++ first, event, earlier, (List.append_assoc ..).symm, began,
    List.forall_mem_append.mpr ⟨kept, still⟩⟩

end Notebook
