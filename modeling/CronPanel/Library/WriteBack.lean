import Mathlib.Tactic.SplitIfs

namespace CronPanel.Library.WriteBack

variable {α : Type} [DecidableEq α]

/-- What a column holds after a session that has read it and edited it writes its row back: a
column that the session has not changed is not written. -/
def writeColumn (read edited stored : α) : α := if edited = read then stored else edited

variable {read edited stored : α}

theorem writeColumn_read (read edited : α) : writeColumn read edited read = edited := by
  unfold writeColumn
  split_ifs with h
  · exact h.symm
  · rfl

theorem writeColumn_same (read stored : α) : writeColumn read read stored = stored := if_pos rfl

theorem writeColumn_ne (h : edited ≠ read) : writeColumn read edited stored = edited := if_neg h

/-- The edit reaches the column unless another value was stored since it was read. -/
theorem writeColumn_eq_edited :
    writeColumn read edited stored = edited ↔ (edited = read → stored = edited) := by
  unfold writeColumn
  split_ifs with h
  · exact ⟨fun hs _ ↦ hs, fun hs ↦ hs h⟩
  · exact ⟨fun _ hread ↦ absurd hread h, fun _ ↦ rfl⟩

theorem writeColumn_cases (read edited stored : α) :
    writeColumn read edited stored = stored ∨
      edited ≠ read ∧ writeColumn read edited stored = edited := by
  unfold writeColumn
  split_ifs with h
  · exact .inl rfl
  · exact .inr ⟨h, rfl⟩

end CronPanel.Library.WriteBack
