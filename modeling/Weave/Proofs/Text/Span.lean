import Weave.Proofs.Text.Trimming

/-!
# What trimming leaves

Trimming leaves a part of a list: everything around it is taken off, and at neither end of it there is
anything more to take off (`Spans`). A list has exactly one such part (`spans_iff`), so that it does not
matter from which end the trimming begins (`trimBoth_reverse`). Lines that are trimmed by searching for
the last line that is not blank, and then for the first one among what is left, come out the same
(`cutBlankLines_eq`).
-/

namespace Weave.Text

variable {α : Type} {p : α → Bool} {xs ys : List α}

/-- Around this part of a list every element is one to take off, and at its ends there is none. -/
structure Spans (p : α → Bool) (xs ys : List α) : Prop where
  around : ∃ front back, xs = front ++ ys ++ back ∧ (∀ x ∈ front, p x) ∧ ∀ x ∈ back, p x
  first : ∀ x ∈ ys.head?, ¬ p x
  last : ∀ x ∈ ys.getLast?, ¬ p x

/-! ## The part is there -/

/-- Taking elements off the end leaves the first one as it was, unless nothing is left. -/
theorem not_of_mem_head?_trimBoth {x : α} (h : x ∈ (trimBoth p xs).head?) : ¬ p x := by
  obtain ⟨rest, hrest⟩ := List.head?_eq_some_iff.1 h
  have hfront : x :: rest <+: xs.dropWhile p := by
    rw [← hrest, trimBoth, dropTrailing_eq_rdropWhile]
    exact List.rdropWhile_prefix p _
  obtain ⟨more, hmore⟩ := hfront
  have hhead := List.head?_dropWhile_not p xs
  rw [← hmore] at hhead
  simpa using hhead

theorem spans_trimBoth (p : α → Bool) (xs : List α) : Spans p xs (trimBoth p xs) where
  around := by
    refine ⟨xs.takeWhile p, (xs.dropWhile p).rtakeWhile p, ?_, fun x hx => List.mem_takeWhile_imp hx,
      fun x hx => List.mem_rtakeWhile_imp hx⟩
    calc xs = xs.takeWhile p ++ xs.dropWhile p := List.takeWhile_append_dropWhile.symm
      _ = xs.takeWhile p ++ (trimBoth p xs ++ (xs.dropWhile p).rtakeWhile p) := by
          rw [trimBoth, dropTrailing_eq_rdropWhile, List.rdropWhile_append_rtakeWhile]
      _ = xs.takeWhile p ++ trimBoth p xs ++ (xs.dropWhile p).rtakeWhile p :=
          (List.append_assoc _ _ _).symm
  first _ hx := not_of_mem_head?_trimBoth hx
  last _ hx := not_of_mem_getLast?_dropTrailing hx

/-! ## There is no other -/

theorem dropTrailing_append {back : List α} (hback : ∀ x ∈ back, p x) :
    dropTrailing p (xs ++ back) = dropTrailing p xs := by
  have hreverse : ∀ x ∈ back.reverse, p x := fun x hx => hback x (List.mem_reverse.1 hx)
  rw [dropTrailing, List.reverse_append, List.dropWhile_append_of_pos hreverse, dropTrailing]

theorem dropWhile_eq_self (h : ∀ x ∈ xs.head?, ¬ p x) : xs.dropWhile p = xs := by
  cases xs with
  | nil => rfl
  | cons x xs => exact List.dropWhile_cons_of_neg (h x rfl)

theorem Spans.eq_trimBoth (h : Spans p xs ys) : ys = trimBoth p xs := by
  obtain ⟨front, back, rfl, hfront, hback⟩ := h.around
  by_cases hys : ys = []
  · -- then everything is taken off
    rw [hys, List.append_nil, eq_comm, trimBoth_eq_nil_iff]
    exact List.forall_mem_append.2 ⟨hfront, hback⟩
  · have hhead : ∀ x ∈ (ys ++ back).head?, ¬ p x := by
      intro x hx
      rw [List.head?_append_of_ne_nil _ hys] at hx
      exact h.first x hx
    calc ys = dropTrailing p ys := (dropTrailing_eq_self h.last).symm
      _ = dropTrailing p (ys ++ back) := (dropTrailing_append hback).symm
      _ = dropTrailing p ((ys ++ back).dropWhile p) := by rw [dropWhile_eq_self hhead]
      _ = trimBoth p (front ++ ys ++ back) := by
          rw [trimBoth, List.append_assoc, List.dropWhile_append_of_pos hfront]

theorem spans_iff : Spans p xs ys ↔ ys = trimBoth p xs := by
  constructor
  · exact Spans.eq_trimBoth
  · rintro rfl
    exact spans_trimBoth p xs

/-- What has been trimmed spans itself. -/
theorem trimBoth_trimBoth : trimBoth p (trimBoth p xs) = trimBoth p xs := by
  have htrimmed := spans_trimBoth p xs
  have hself : Spans p (trimBoth p xs) (trimBoth p xs) :=
    ⟨⟨[], [], by simp⟩, htrimmed.first, htrimmed.last⟩
  exact hself.eq_trimBoth.symm

/-! ## Trimming from the other end -/

theorem Spans.reverse (h : Spans p xs ys) : Spans p xs.reverse ys.reverse where
  around := by
    obtain ⟨front, back, rfl, hfront, hback⟩ := h.around
    refine ⟨back.reverse, front.reverse, by simp, ?_, ?_⟩
    · exact fun x hx => hback x (List.mem_reverse.1 hx)
    · exact fun x hx => hfront x (List.mem_reverse.1 hx)
  first := by
    rw [List.head?_reverse]
    exact h.last
  last := by
    rw [List.getLast?_reverse]
    exact h.first

theorem trimBoth_reverse : trimBoth p xs.reverse = (trimBoth p xs).reverse :=
  (spans_trimBoth p xs).reverse.eq_trimBoth.symm

theorem dropWhile_dropTrailing : (dropTrailing p xs).dropWhile p = trimBoth p xs := by
  have hreverse : (trimBoth p xs.reverse).reverse = (dropTrailing p xs).dropWhile p := by
    rw [trimBoth, dropTrailing, dropTrailing, List.reverse_reverse]
  rw [← hreverse, trimBoth_reverse, List.reverse_reverse]

/-! ## Trimming by two searches -/

/-- The place of the last element that satisfies `q`. -/
def lastIdx? (q : α → Bool) (xs : List α) : Option ℕ :=
  (xs.reverse.findIdx? q).map fun i => xs.length - 1 - i

/-- Lines up to the last one that is not blank, and of these the lines from the first such one on. If
there is none, then the first cut leaves nothing to the second. -/
def cutBlankLines (lines : List String) : List String :=
  let kept := lines.take (((lastIdx? (!isBlankLine ·) lines).map (· + 1)).getD 0)
  kept.drop ((kept.findIdx? (!isBlankLine ·)).getD kept.length)

theorem drop_findIdx? (p : α → Bool) (xs : List α) :
    xs.drop ((xs.findIdx? (!p ·)).getD xs.length) = xs.dropWhile p := by
  rw [List.dropWhile_eq_drop_findIdx_not, List.findIdx_eq_getD_findIdx?]

theorem take_lastIdx? (p : α → Bool) (xs : List α) :
    xs.take (((lastIdx? (!p ·) xs).map (· + 1)).getD 0) = dropTrailing p xs := by
  have hplace : ((lastIdx? (!p ·) xs).map (· + 1)).getD 0
      = xs.length - xs.reverse.findIdx (!p ·) := by
    rw [lastIdx?, List.findIdx_eq_getD_findIdx?, List.length_reverse]
    cases hfound : xs.reverse.findIdx? (!p ·) with
    | none => simp
    | some i =>
      obtain ⟨hi, -⟩ := List.findIdx?_eq_some_iff_getElem.1 hfound
      rw [List.length_reverse] at hi
      show xs.length - 1 - i + 1 = xs.length - i
      omega
  rw [hplace, dropTrailing, List.dropWhile_eq_drop_findIdx_not, List.reverse_drop, List.reverse_reverse,
    List.length_reverse]

theorem cutBlankLines_eq (lines : List String) : cutBlankLines lines = trimBlankLines lines := by
  show (lines.take _).drop _ = trimBoth isBlankLine lines
  rw [drop_findIdx?, take_lastIdx?, dropWhile_dropTrailing]

/-! ## Blank lines -/

/-- Trimming keeps the one part of a list of lines that has nothing but blank lines around it and does
not begin or end with one. Nothing is kept exactly if all lines are blank, and nothing more is taken off
a second time. It is the same part that the two searches cut out. -/
theorem spans_iff_eq_trimBlankLines (lines : List String) :
    (∀ kept, Spans isBlankLine lines kept ↔ kept = trimBlankLines lines) ∧
      (trimBlankLines lines = [] ↔ ∀ line ∈ lines, isBlankLine line) ∧
      trimBlankLines (trimBlankLines lines) = trimBlankLines lines ∧
      cutBlankLines lines = trimBlankLines lines := by
  refine ⟨fun kept => ?_, ?_, ?_, cutBlankLines_eq lines⟩
  · exact spans_iff
  · exact trimBoth_eq_nil_iff
  · exact trimBoth_trimBoth

example : trimBlankLines ["  ", "a", "\t", "b", "\u3000"] = ["a", "\t", "b"] := by decide

end Weave.Text
