import Mathlib.Data.List.Induction

namespace Framework

variable {α : Type} {log : List α} {m a b x : α}

/-- `m` happened, and the first `a` only after it. -/
def After (log : List α) (m a : α) : Prop :=
  ∃ before after, log = before ++ m :: after ∧ a ∈ after ∧ a ∉ before

/-- Whenever `b` happened, `a` had happened before. -/
def Precedes (log : List α) (a b : α) : Prop :=
  ∀ before after, log = before ++ b :: after → a ∈ before

theorem After.mem (h : After log m a) : a ∈ log := by
  obtain ⟨before, after, rfl, ha, -⟩ := h
  simp [ha]

theorem After.append (h : After log m a) (later : List α) : After (log ++ later) m a := by
  obtain ⟨before, after, rfl, ha, hb⟩ := h
  exact ⟨before, after ++ later, by simp, by simp [ha], hb⟩

/-- What happens for the first time happens after everything so far. -/
theorem after_append (hm : m ∈ log) (ha : a ∉ log) : After (log ++ [a]) m a := by
  obtain ⟨before, after, rfl⟩ := List.append_of_mem hm
  exact ⟨before, after ++ [a], by simp, by simp, fun h => ha (by simp [h])⟩

theorem precedes_nil : Precedes [] a b := by
  intro before after h
  simp at h

theorem Precedes.append (h : Precedes log a b) (hx : x = b → a ∈ log) :
    Precedes (log ++ [x]) a b := by
  intro before after heq
  induction after using List.reverseRecOn with
  | nil =>
    obtain ⟨rfl, hxb⟩ := List.append_inj' heq rfl
    exact hx (by simpa using hxb)
  | append_singleton after y _ =>
    have heq' : log ++ [x] = (before ++ b :: after) ++ [y] := by simpa using heq
    exact h before after (List.append_inj' heq' rfl).1

theorem After.trans (h : After log m a) (hp : Precedes log a b) (hb : b ∈ log) :
    After log m b := by
  obtain ⟨before, after, rfl, ha, hna⟩ := h
  have hnb : b ∉ before := by
    intro hb
    obtain ⟨s, t, rfl⟩ := List.append_of_mem hb
    exact hna (List.mem_append_left _ (hp s (t ++ m :: after) (by simp)))
  have hbm : b ≠ m := by
    rintro rfl
    exact hna (hp before after rfl)
  have hba : b ∈ after := by simpa [hnb, hbm] using hb
  exact ⟨before, after, rfl, hba, hnb⟩

end Framework
