import Mathlib.Data.List.DropRight
import Weave.Text.Blank

/-!
# Trimming, one element at a time

How the trimmed form of a list changes when an element is put at its end: nothing happens if the
element is one that trimming takes off (`trimBoth_concat_of_pos`), and otherwise the element brings
back everything since the first one that stays (`trimBoth_concat_of_neg`). What it brings back are
the trailing elements that had been taken off before (`dropWhile_eq_trimBoth_append`).
-/

namespace Weave.Text

variable {α : Type} {p : α → Bool} {xs : List α} {x : α}

theorem dropTrailing_eq_rdropWhile : dropTrailing p xs = xs.rdropWhile p := rfl

/-- Nothing is taken off the end if the last element stays. -/
theorem dropTrailing_eq_self (h : ∀ x ∈ xs.getLast?, ¬ p x) : dropTrailing p xs = xs := by
  rw [dropTrailing_eq_rdropWhile, List.rdropWhile_eq_self_iff]
  intro hne
  exact h (xs.getLast hne) (List.getLast?_eq_some_getLast hne)

/-- An element that is taken off is not the last one of what stays. -/
theorem not_of_mem_getLast?_dropTrailing (h : x ∈ (dropTrailing p xs).getLast?) : ¬ p x := by
  rw [dropTrailing_eq_rdropWhile, Option.mem_def] at h
  have hne : xs.rdropWhile p ≠ [] := by
    intro hnil
    rw [hnil] at h
    cases h
  rw [List.getLast?_eq_some_getLast hne] at h
  obtain rfl := Option.some.inj h
  exact List.rdropWhile_last_not p xs hne

/-- What is taken off are copies of one element, if only this one is taken off. -/
theorem exists_eq_dropTrailing_append_replicate [BEq α] [LawfulBEq α] (x : α) (xs : List α) :
    ∃ n, xs = dropTrailing (· == x) xs ++ List.replicate n x := by
  have htaken : xs.rtakeWhile (· == x) = List.replicate (xs.rtakeWhile (· == x)).length x := by
    refine List.eq_replicate_iff.2 ⟨rfl, fun y hy => ?_⟩
    have hp := List.mem_rtakeWhile_imp hy
    exact beq_iff_eq.1 hp
  refine ⟨(xs.rtakeWhile (· == x)).length, ?_⟩
  rw [← htaken, dropTrailing_eq_rdropWhile, List.rdropWhile_append_rtakeWhile]

/-- Nothing is left by trimming exactly if every element is taken off. -/
theorem trimBoth_eq_nil_iff : trimBoth p xs = [] ↔ ∀ x ∈ xs, p x := by
  rw [trimBoth, dropTrailing_eq_rdropWhile, List.rdropWhile_eq_nil_iff, ← List.dropWhile_eq_nil_iff,
    List.dropWhile_idempotent, List.dropWhile_eq_nil_iff]

/-- Dropping from the front reaches an element at the end only if nothing before it stays. -/
private theorem dropWhile_concat_of_neg (h : ¬ p x) :
    (xs ++ [x]).dropWhile p = xs.dropWhile p ++ [x] := by
  rw [List.dropWhile_append]
  split
  · next hnil => rw [List.isEmpty_iff.1 hnil, List.dropWhile_cons_of_neg h, List.nil_append]
  · rfl

theorem trimBoth_concat_of_pos (h : p x) : trimBoth p (xs ++ [x]) = trimBoth p xs := by
  rw [trimBoth, trimBoth, dropTrailing_eq_rdropWhile, dropTrailing_eq_rdropWhile,
    List.dropWhile_append]
  split
  · -- every element before the new one is taken off as well
    next hnil =>
    rw [List.isEmpty_iff.1 hnil, List.dropWhile_cons_of_pos h, List.dropWhile_nil]
  · rw [List.rdropWhile_concat_pos _ _ _ h]

theorem trimBoth_concat_of_neg (h : ¬ p x) : trimBoth p (xs ++ [x]) = xs.dropWhile p ++ [x] := by
  rw [trimBoth, dropTrailing_eq_rdropWhile, dropWhile_concat_of_neg h,
    List.rdropWhile_concat_neg _ _ _ h]

/-- If some element stays, then dropping from the front only differs from trimming by the trailing
elements. -/
theorem dropWhile_eq_trimBoth_append (h : ∃ x ∈ xs, ¬ p x) :
    xs.dropWhile p = trimBoth p xs ++ xs.rtakeWhile p := by
  induction xs using List.reverseRecOn with
  | nil => simp at h
  | append_singleton xs x ih =>
    by_cases hx : p x
    · -- the element that stays is an earlier one
      have hxs : ∃ y ∈ xs, ¬ p y := by
        obtain ⟨y, hy, hpy⟩ := h
        rcases List.mem_append.1 hy with hy | hy
        · exact ⟨y, hy, hpy⟩
        · exact absurd (List.mem_singleton.1 hy ▸ hx) hpy
      have hdrop : xs.dropWhile p ≠ [] := by
        rw [Ne, List.dropWhile_eq_nil_iff]
        push Not
        exact hxs
      rw [List.dropWhile_append, if_neg (by simpa using hdrop), trimBoth_concat_of_pos hx,
        List.rtakeWhile_concat_pos _ _ _ hx, ih hxs, List.append_assoc]
    · rw [dropWhile_concat_of_neg hx, trimBoth_concat_of_neg hx,
        List.rtakeWhile_concat_neg _ _ _ hx, List.append_nil]

end Weave.Text
