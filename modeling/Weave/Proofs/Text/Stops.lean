import Mathlib.Data.List.TakeWhile

/-!
# Up to a stop

A list is read up to the first place where a given element stands. What comes before that place and
what comes behind it can be told from the list (`append_cons_inj`), and `cutAt?` tells it.
-/

namespace Weave.Text

variable {α : Type} {stop : α} {xs rest : List α}

/-- What is behind any stop ends what is behind the first one. -/
theorem isSuffix_of_append_cons_eq {xs' rest' : List α} (h : stop ∉ xs)
    (heq : xs ++ stop :: rest = xs' ++ stop :: rest') : rest' <:+ rest := by
  rcases List.append_eq_append_iff.1 heq with ⟨more, -, hmore⟩ | ⟨more, hxs, hmore⟩
  · cases more with
    | nil => exact (List.tail_eq_of_cons_eq hmore).symm ▸ List.suffix_rfl
    | cons x more =>
      rw [List.tail_eq_of_cons_eq hmore]
      exact (List.suffix_cons stop rest').trans (List.suffix_append more _)
  · cases more with
    | nil => exact (List.tail_eq_of_cons_eq hmore) ▸ List.suffix_rfl
    | cons x more =>
      have hx : stop = x := List.head_eq_of_cons_eq hmore
      rw [hxs, ← hx] at h
      exact absurd (List.mem_append_right _ List.mem_cons_self) h

/-- Before a stop that is known there may be an earlier one, which does not depend on what follows. -/
theorem exists_first_stop (stop : α) (xs : List α) :
    ∃ front back, stop ∉ front ∧ xs ++ [stop] = front ++ stop :: back ∧
      ∀ rest, xs ++ stop :: rest = front ++ stop :: (back ++ rest) := by
  obtain ⟨front, back, hxs, hfront⟩ :=
    List.eq_append_cons_of_mem (List.mem_concat_self : stop ∈ xs ++ [stop])
  refine ⟨front, back, hfront, hxs, fun rest => ?_⟩
  calc xs ++ stop :: rest = (xs ++ [stop]) ++ rest := by rw [List.append_assoc, List.singleton_append]
    _ = front ++ stop :: (back ++ rest) := by rw [hxs, List.append_assoc, List.cons_append]

variable [BEq α] [LawfulBEq α]

/-- Between stops there is none. -/
theorem not_mem_of_mem_splitOn {piece : List α} (h : piece ∈ xs.splitOn stop) : stop ∉ piece := by
  induction xs generalizing piece with
  | nil =>
    rw [List.splitOn_nil, List.mem_singleton] at h
    rw [h]
    exact List.not_mem_nil
  | cons x xs ih =>
    obtain ⟨first, more, hxs⟩ := List.exists_cons_of_ne_nil (List.splitOn_ne_nil stop xs)
    rw [hxs] at ih
    rw [List.splitOn_cons_eq_if_modifyHead, hxs] at h
    split at h
    · rcases List.mem_cons.1 h with rfl | h
      · exact List.not_mem_nil
      · exact ih h
    · next hx =>
      -- the first piece gets one more element, which is no stop
      have hne : stop ≠ x := fun heq => hx (beq_iff_eq.2 heq.symm)
      rcases List.mem_cons.1 h with rfl | h
      · exact List.not_mem_cons_of_ne_of_not_mem hne (ih List.mem_cons_self)
      · exact ih (List.mem_cons_of_mem _ h)

theorem bne_of_not_mem (h : stop ∉ xs) : ∀ x ∈ xs, (x != stop) = true := by
  intro x hx
  rw [bne_iff_ne]
  exact ne_of_mem_of_not_mem hx h

theorem dropWhile_of_not_mem (h : stop ∉ xs) : xs.dropWhile (· != stop) = [] :=
  List.dropWhile_eq_nil_iff.2 (bne_of_not_mem h)

theorem dropWhile_append_cons (h : stop ∉ xs) (rest : List α) :
    (xs ++ stop :: rest).dropWhile (· != stop) = stop :: rest := by
  rw [List.dropWhile_append_of_pos (bne_of_not_mem h), List.dropWhile_cons_of_neg (by simp)]

theorem takeWhile_append_cons (h : stop ∉ xs) (rest : List α) :
    (xs ++ stop :: rest).takeWhile (· != stop) = xs := by
  rw [List.takeWhile_append_of_pos (bne_of_not_mem h), List.takeWhile_cons_of_neg (by simp),
    List.append_nil]

/-- What is left when everything before a stop is dropped begins with the first stop. -/
theorem eq_append_cons_of_dropWhile {x : α} (h : xs.dropWhile (· != stop) = x :: rest) :
    xs = xs.takeWhile (· != stop) ++ stop :: rest ∧ stop ∉ xs.takeWhile (· != stop) := by
  have hx : x = stop := by
    have hhead := List.head?_dropWhile_not (· != stop) xs
    rw [h] at hhead
    simpa using hhead
  constructor
  · rw [← hx, ← h, hx, List.takeWhile_append_dropWhile]
  · intro hmem
    simpa using List.mem_takeWhile_imp hmem

theorem append_cons_inj {xs' rest' : List α} (h : stop ∉ xs) (h' : stop ∉ xs')
    (heq : xs ++ stop :: rest = xs' ++ stop :: rest') : xs = xs' ∧ rest = rest' := by
  have htake := congrArg (List.takeWhile (· != stop)) heq
  have hdrop := congrArg (List.dropWhile (· != stop)) heq
  rw [takeWhile_append_cons h, takeWhile_append_cons h'] at htake
  rw [dropWhile_append_cons h, dropWhile_append_cons h'] at hdrop
  exact ⟨htake, List.tail_eq_of_cons_eq hdrop⟩

/-- What comes before the first stop and what comes behind it, if there is one. -/
def cutAt? (stop : α) (xs : List α) : Option (List α × List α) :=
  match xs.dropWhile (· != stop) with
  | [] => none
  | _ :: rest => some (xs.takeWhile (· != stop), rest)

/-- A list is cut at the first stop in it. -/
theorem cutAt?_eq_some_iff {front : List α} :
    cutAt? stop xs = some (front, rest) ↔ xs = front ++ stop :: rest ∧ stop ∉ front := by
  constructor
  · intro h
    unfold cutAt? at h
    split at h
    · cases h
    · next hdrop =>
      cases h
      exact eq_append_cons_of_dropWhile hdrop
  · intro ⟨hxs, hfront⟩
    unfold cutAt?
    rw [hxs, dropWhile_append_cons hfront, takeWhile_append_cons hfront]

theorem cutAt?_eq_none_iff : cutAt? stop xs = none ↔ stop ∉ xs := by
  constructor
  · intro h hmem
    obtain ⟨front, rest, hxs, hfront⟩ := List.eq_append_cons_of_mem hmem
    rw [cutAt?_eq_some_iff.2 ⟨hxs, hfront⟩] at h
    cases h
  · intro h
    unfold cutAt?
    rw [dropWhile_of_not_mem h]

theorem cutAt?_cons_of_ne {x : α} (h : x ≠ stop) :
    cutAt? stop (x :: xs) = (cutAt? stop xs).map fun (front, rest) => (x :: front, rest) := by
  have hx : (x != stop) = true := bne_iff_ne.2 h
  unfold cutAt?
  rw [List.dropWhile_cons_of_pos (p := (· != stop)) hx,
    List.takeWhile_cons_of_pos (p := (· != stop)) hx]
  cases xs.dropWhile (· != stop) with
  | nil => rfl
  | cons y rest => rfl

/-! ## Texts between stops -/

theorem map_ofList_map_toList (ls : List String) : (ls.map String.toList).map String.ofList = ls := by
  rw [List.map_map]
  exact List.map_id'' (fun _ => String.ofList_toList) ls

/-- Texts without a stop are read back from what they make with stops between them. -/
theorem map_ofList_splitOn_intercalate {sep : String} {c : Char} {ls : List String}
    (hsep : sep.toList = [c]) (hne : ls ≠ []) (h : ∀ t ∈ ls, c ∉ t.toList) :
    ((sep.intercalate ls).toList.splitOn c).map String.ofList = ls := by
  have hpieces : ∀ piece ∈ ls.map String.toList, c ∉ piece := List.forall_mem_map.2 h
  have hne' : ls.map String.toList ≠ [] := by rwa [Ne, List.map_eq_nil_iff]
  rw [String.toList_intercalate, hsep, List.splitOn_intercalate c hpieces hne', map_ofList_map_toList]

end Weave.Text
