/-!
# Lists without repetition

`appendNew` adds an element at the end of a list unless the list has it already, so a list that is
built by it keeps the order in which its elements were first met.
-/

namespace AnalysisScheduler

variable {α : Type u} [DecidableEq α]

/-- `xs` with `x` at the end, or `xs` itself if it has `x`. -/
def appendNew (xs : List α) (x : α) : List α := if x ∈ xs then xs else xs ++ [x]

theorem mem_appendNew {xs : List α} {x y : α} : y ∈ appendNew xs x ↔ y ∈ xs ∨ y = x := by
  unfold appendNew
  split
  · rename_i h
    exact ⟨.inl, fun hy => hy.elim id fun e => e ▸ h⟩
  · simp

theorem nodup_appendNew {xs : List α} (h : xs.Nodup) (x : α) : (appendNew xs x).Nodup := by
  unfold appendNew
  split
  · exact h
  · rename_i hx
    rw [List.nodup_append]
    exact ⟨h, by simp, fun a ha b hb hab => hx (by
      have : b = x := by simpa using hb
      rw [← this, ← hab]; exact ha)⟩

theorem appendNew_ne_nil (xs : List α) (x : α) : appendNew xs x ≠ [] := by
  have last : x ∈ appendNew xs x := mem_appendNew.2 (.inr rfl)
  exact List.ne_nil_of_mem last

end AnalysisScheduler
