import AnalysisScheduler.Collection.Distinct
import Mathlib.Data.List.Basic

/-!
# Lists that grow without repetition

Elements that are added one after another, each unless it is there already: which elements the list
has in the end (`mem_foldl_appendNew`), that an empty list becomes the list of the first occurrences
(`foldl_appendNew_nil`), and that a map which is injective on them does not notice
(`map_foldl_appendNew`, `eraseDups_map`). A list of keys without repetition groups the elements of
another list without losing any (`flatMap_filter_perm`).
-/

namespace AnalysisScheduler

variable {α : Type u} {β : Type v} [DecidableEq α] [DecidableEq β]

theorem appendNew_of_mem {xs : List α} {x : α} (old : x ∈ xs) : appendNew xs x = xs := if_pos old

theorem appendNew_of_not_mem {xs : List α} {x : α} (new : x ∉ xs) : appendNew xs x = xs ++ [x] :=
  if_neg new

theorem mem_foldl_appendNew {xs ys : List α} {x : α} :
    x ∈ ys.foldl appendNew xs ↔ x ∈ xs ∨ x ∈ ys := by
  induction ys generalizing xs with
  | nil => simp
  | cons y ys ih => rw [List.foldl_cons, ih, mem_appendNew, List.mem_cons, or_assoc]

theorem nodup_foldl_appendNew {xs ys : List α} (nodup : xs.Nodup) :
    (ys.foldl appendNew xs).Nodup := by
  induction ys generalizing xs with
  | nil => exact nodup
  | cons y ys ih => exact ih (nodup_appendNew nodup y)

theorem foldl_appendNew_eq_append (xs ys : List α) :
    ys.foldl appendNew xs = xs ++ (ys.removeAll xs).eraseDups := by
  induction ys generalizing xs with
  | nil => simp
  | cons y ys ih =>
    rw [List.foldl_cons, ih]
    by_cases old : y ∈ xs
    · have dropped : (y :: ys).removeAll xs = ys.removeAll xs :=
        List.filter_cons_of_neg (by simpa using old)
      rw [appendNew_of_mem old, dropped]
    · have kept : (y :: ys).removeAll xs = y :: ys.removeAll xs :=
        List.filter_cons_of_pos (by simpa using old)
      have rest : ys.removeAll (xs ++ [y]) = (ys.removeAll xs).filter (fun z => !z == y) := by
        unfold List.removeAll
        rw [List.filter_filter]
        refine List.filter_congr fun z _ => ?_
        rw [Bool.eq_iff_iff]
        simp [and_comm]
      rw [appendNew_of_not_mem old, kept, List.eraseDups_cons, rest, List.append_assoc]
      rfl

/-- The first occurrences in a list. -/
theorem foldl_appendNew_nil (ys : List α) : ys.foldl appendNew [] = ys.eraseDups := by
  have none : ys.removeAll [] = ys := List.filter_eq_self.2 fun _ _ => rfl
  rw [foldl_appendNew_eq_append, none, List.nil_append]

theorem nodup_eraseDups (ys : List α) : ys.eraseDups.Nodup :=
  foldl_appendNew_nil ys ▸ nodup_foldl_appendNew .nil

/-- First occurrences stay first occurrences under an injective map, whatever tests for equality the
two types come with. -/
theorem eraseDups_map {γ : Type u} {δ : Type v} [BEq γ] [LawfulBEq γ] [BEq δ] [LawfulBEq δ]
    {f : γ → δ} (injective : Function.Injective f) :
    ∀ xs : List γ, (xs.map f).eraseDups = xs.eraseDups.map f
  | [] => rfl
  | x :: xs => by
    have others : (fun y => !y == f x) ∘ f = fun y => !y == x := by
      funext y
      have same : (f y == f x) = (y == x) := by
        rw [Bool.eq_iff_iff, beq_iff_eq, beq_iff_eq, injective.eq_iff]
      rw [Function.comp_apply, same]
    rw [List.map_cons, List.eraseDups_cons, List.eraseDups_cons, List.map_cons, List.filter_map,
      others, eraseDups_map injective]
termination_by xs => xs.length
decreasing_by
  exact Nat.lt_succ_of_le (List.length_filter_le _ _)

omit [DecidableEq β] in
/-- Elements that are grouped by a key, one group for each key, are only rearranged. -/
theorem flatMap_filter_perm {key : β → α} {keys : List α} (nodup : keys.Nodup) {xs : List β}
    (covered : ∀ x ∈ xs, key x ∈ keys) :
    (keys.flatMap fun k => xs.filter (key · = k)).Perm xs := by
  induction xs with
  | nil => simp
  | cons x xs ih =>
    have ih := ih fun y mem => covered y (List.mem_cons_of_mem x mem)
    obtain ⟨before, after, rfl⟩ := List.append_of_mem (covered x List.mem_cons_self)
    have apart (ks : List α) (out : key x ∉ ks) :
        (ks.flatMap fun k => (x :: xs).filter (key · = k)) =
          ks.flatMap fun k => xs.filter (key · = k) := by
      refine List.flatMap_congr fun k mem => List.filter_cons_of_neg ?_
      exact fun here => out (of_decide_eq_true here ▸ mem)
    have alone := List.nodup_append.1 nodup
    have own : (x :: xs).filter (key · = key x) = x :: xs.filter (key · = key x) :=
      List.filter_cons_of_pos (decide_eq_true rfl)
    rw [List.flatMap_append, List.flatMap_cons, own, List.cons_append,
      apart before fun mem => alone.2.2 _ mem _ List.mem_cons_self rfl,
      apart after (List.nodup_cons.1 alone.2.1).1]
    rw [List.flatMap_append, List.flatMap_cons] at ih
    exact List.perm_middle.trans (.cons x ih)

theorem map_appendNew {f : α → β} {xs : List α} {x : α} (injective : ∀ y ∈ xs, f x = f y → x = y) :
    (appendNew xs x).map f = appendNew (xs.map f) (f x) := by
  have same : f x ∈ xs.map f ↔ x ∈ xs := by
    rw [List.mem_map]
    constructor
    · rintro ⟨y, mem, eq⟩
      exact injective y mem eq.symm ▸ mem
    · exact fun mem => ⟨x, mem, rfl⟩
  by_cases old : x ∈ xs
  · rw [appendNew_of_mem old, appendNew_of_mem (same.2 old)]
  · rw [appendNew_of_not_mem old, appendNew_of_not_mem (mt same.1 old), List.map_append]
    rfl

theorem map_foldl_appendNew {f : α → β} {xs ys : List α}
    (injective : ∀ x ∈ ys, ∀ y, y ∈ xs ∨ y ∈ ys → f x = f y → x = y) :
    (ys.foldl appendNew xs).map f = (ys.map f).foldl appendNew (xs.map f) := by
  induction ys generalizing xs with
  | nil => rfl
  | cons y ys ih =>
    have here := injective y List.mem_cons_self
    rw [List.foldl_cons, List.map_cons, List.foldl_cons,
      ← map_appendNew fun z mem => here z (.inl mem)]
    refine ih fun x mem z known => injective x (List.mem_cons_of_mem y mem) z ?_
    rcases known with known | later
    · rcases mem_appendNew.1 known with old | rfl
      · exact .inl old
      · exact .inr List.mem_cons_self
    · exact .inr (List.mem_cons_of_mem y later)

end AnalysisScheduler
