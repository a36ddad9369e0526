import Mathlib.Data.List.Induction
import Weave.Path.Raw
import Weave.Proofs.Text.Stops

/-!
# Shortest ways

A place is given by the names on the way to it from the root. A way is a list of steps: `..` leads to
the parent of a place and any other step to what has that name in it (`follow`). `stepsBetween` climbs
to the last place that lies above both ends and goes down from there, so it arrives
(`foldl_follow_stepsBetween`); its length is how far the two places are apart, which a single step
changes by one at most (`length_stepsBetween_le_follow`), and so no way takes fewer steps
(`length_stepsBetween_le_foldl`).
-/

namespace Weave

namespace RawPath

variable {α : Type} {place goal names steps : List String}

/-! ## Names of places -/

/-- What something in a directory can be called: neither of the two names that every directory uses
for itself and its parent, and nothing with a slash in it. -/
structure IsName (name : String) : Prop where
  ne_empty : name ≠ ""
  ne_here : name ≠ "."
  ne_up : name ≠ ".."
  slash_not_mem : '/' ∉ name.toList

/-! ## What places have in common -/

section Common

variable [DecidableEq α]

/-- Two lists share no more than the first one has. -/
theorem commonLength_le_left (as bs : List α) : commonLength as bs ≤ as.length := by
  fun_induction commonLength as bs with
  | case1 a as bs ih => exact Nat.succ_le_succ ih
  | case2 => exact Nat.zero_le _
  | case3 => exact Nat.zero_le _

/-- Two lists share no more than the second one has. -/
theorem commonLength_le_right (as bs : List α) : commonLength as bs ≤ bs.length := by
  fun_induction commonLength as bs with
  | case1 a as bs ih => exact Nat.succ_le_succ ih
  | case2 => exact Nat.zero_le _
  | case3 => exact Nat.zero_le _

/-- A list shares all it has with itself. -/
theorem commonLength_self (as : List α) : commonLength as as = as.length := by
  induction as with
  | nil => rfl
  | cons a as ih => rw [commonLength, if_pos rfl, ih, List.length_cons]

/-- What two lists share is the front of both. -/
theorem take_commonLength (as bs : List α) :
    bs.take (commonLength as bs) = as.take (commonLength as bs) := by
  fun_induction commonLength as bs with
  | case1 a as bs ih => rw [List.take_succ_cons, List.take_succ_cons, ih]
  | case2 => rfl
  | case3 => rfl

/-- One element more can be one more that is shared, and takes away none. -/
theorem commonLength_append_singleton (as bs : List α) (b : α) :
    commonLength as bs ≤ commonLength as (bs ++ [b]) ∧
      commonLength as (bs ++ [b]) ≤ commonLength as bs + 1 := by
  fun_induction commonLength as bs with
  | case1 a as bs ih =>
    rw [List.cons_append, commonLength, if_pos rfl]
    omega
  | case2 a as c bs hne =>
    rw [List.cons_append, commonLength, if_neg hne]
    omega
  | case3 as bs hend =>
    -- one of the two is at its end, so they share the new element at most
    have hone : commonLength as (bs ++ [b]) ≤ 1 := by
      cases as with
      | nil => exact (commonLength_le_left [] _).trans (Nat.zero_le 1)
      | cons a as =>
        cases bs with
        | nil => exact commonLength_le_right (a :: as) [b]
        | cons c bs => exact absurd rfl (hend a as c bs rfl)
    exact ⟨Nat.zero_le _, hone⟩

end Common

/-! ## Following a way -/

/-- The place that a step of a way leads to. What is in a directory is called by texts, which `name`
turns into the names of places. -/
def follow (name : String → α) (place : List α) (step : String) : List α :=
  if step = ".." then place.dropLast else place ++ [name step]

/-- Steps up take the last names away, as far as there are any. -/
theorem foldl_follow_replicate (n : ℕ) (place : List String) :
    (List.replicate n "..").foldl (follow id) place = place.take (place.length - n) := by
  induction n generalizing place with
  | zero => exact (List.take_length).symm
  | succ n ih =>
    have hup : follow id place ".." = place.dropLast := if_pos rfl
    rw [List.replicate_succ, List.foldl_cons, hup, ih, List.dropLast_eq_take, List.take_take,
      List.length_take]
    congr 1
    omega

/-- Steps down add their names. -/
theorem foldl_follow_of_isName (h : ∀ name ∈ names, IsName name) (place : List String) :
    names.foldl (follow id) place = place ++ names := by
  induction names generalizing place with
  | nil => exact (List.append_nil place).symm
  | cons name names ih =>
    rw [List.forall_mem_cons] at h
    have hname : follow id place name = place ++ [name] := if_neg h.1.ne_up
    rw [List.foldl_cons, hname, ih h.2, List.append_assoc, List.singleton_append]

/-- The steps from a directory to a place arrive there. -/
theorem foldl_follow_stepsBetween (hgoal : ∀ name ∈ goal, IsName name) (place : List String) :
    (stepsBetween place goal).foldl (follow id) place = goal := by
  have hle := commonLength_le_right goal place
  have hdown : ∀ name ∈ goal.drop (commonLength goal place), IsName name := by
    intro name hname
    exact hgoal name (List.mem_of_mem_drop hname)
  -- up to what the two places share, and from there down to the goal
  show (List.replicate (place.length - commonLength goal place) ".."
    ++ goal.drop (commonLength goal place)).foldl (follow id) place = goal
  rw [List.foldl_append, foldl_follow_replicate, foldl_follow_of_isName hdown, Nat.sub_sub_self hle,
    take_commonLength, List.take_append_drop]

/-! ## Shortest ways -/

/-- The way climbs to what the two places share and goes down from there. -/
theorem length_stepsBetween (place goal : List String) :
    (stepsBetween place goal).length
      = (place.length - commonLength goal place) + (goal.length - commonLength goal place) := by
  unfold stepsBetween
  rw [List.length_append, List.length_replicate, List.length_drop]

/-- A step brings a place nearer by one at most. -/
theorem length_stepsBetween_le_follow (place goal : List String) (step : String) :
    (stepsBetween place goal).length ≤ (stepsBetween (follow id place step) goal).length + 1 := by
  rw [length_stepsBetween, length_stepsBetween]
  unfold follow
  split
  · cases place using List.reverseRecOn with
    | nil => exact Nat.le_succ _
    | append_singleton place name =>
      -- going up gives up one name at most that the place shares with the goal
      have hcommon := commonLength_append_singleton goal place name
      have hplace := commonLength_le_right goal place
      rw [List.dropLast_concat, List.length_append, List.length_singleton]
      omega
  · -- going down wins one such name at most
    have hcommon := commonLength_append_singleton goal place step
    have hplace := commonLength_le_right goal place
    have hgoal := commonLength_le_left goal (place ++ [step])
    rw [id_eq, List.length_append, List.length_singleton]
    omega

/-- However a way goes on, each of its steps brings a place nearer by one at most. -/
theorem length_stepsBetween_le_foldl (place goal steps : List String) :
    (stepsBetween place goal).length
      ≤ (stepsBetween (steps.foldl (follow id) place) goal).length + steps.length := by
  -- along the way, which goes on from another place after each step
  induction steps generalizing place with
  | nil => exact Nat.le_refl _
  | cons step steps ih =>
    have hstep := length_stepsBetween_le_follow place goal step
    have hrest := ih (follow id place step)
    rw [List.foldl_cons, List.length_cons]
    omega

/-- A way from one place to another than which none takes fewer steps. -/
structure Shortest (name : String → α) (place goal : List α) (steps : List String) : Prop where
  arrives : steps.foldl (follow name) place = goal
  length_le : ∀ other : List String, other.foldl (follow name) place = goal →
    steps.length ≤ other.length

/-- Nothing is shorter than up to what the two places share and down from there. -/
theorem shortest_stepsBetween (hgoal : ∀ name ∈ goal, IsName name) (place : List String) :
    Shortest id place goal (stepsBetween place goal) where
  arrives := foldl_follow_stepsBetween hgoal place
  length_le := by
    intro other hother
    have hlength := length_stepsBetween_le_foldl place goal other
    have hzero : (stepsBetween goal goal).length = 0 := by
      rw [length_stepsBetween, commonLength_self, Nat.sub_self]
    rw [hother, hzero, Nat.zero_add] at hlength
    exact hlength

/-- A way is followed by the names of places as it is by the texts that they are called by. -/
theorem foldl_follow_map (name : String → α) (place steps : List String) :
    steps.foldl (follow name) (place.map name) = (steps.foldl (follow id) place).map name := by
  induction steps generalizing place with
  | nil => rfl
  | cons step steps ih =>
    have hstep : follow name (place.map name) step = (follow id place step).map name := by
      unfold follow
      split
      · exact List.map_dropLast.symm
      · rw [List.map_append]
        rfl
    rw [List.foldl_cons, List.foldl_cons, hstep, ih]

/-- Where different texts call different things, a shortest way stays one. -/
theorem Shortest.map {name : String → α} (hname : Function.Injective name)
    (h : Shortest id place goal steps) : Shortest name (place.map name) (goal.map name) steps where
  arrives := by rw [foldl_follow_map, h.arrives]
  length_le other hother := by
    rw [foldl_follow_map] at hother
    exact h.length_le other ((List.map_inj_right @hname).1 hother)

/-! ## Ways as texts -/

/-- The steps of a way with slashes between them; the empty text is the way without steps. -/
def stepsOf (way : String) : List String :=
  if way = "" then [] else (Path.mk way).pieces.map String.ofList

/-- The steps of a way are read back from its text. -/
theorem stepsOf_intercalate (h : ∀ step ∈ steps, step ≠ "" ∧ '/' ∉ step.toList) :
    stepsOf ("/".intercalate steps) = steps := by
  unfold stepsOf
  cases steps with
  | nil => exact if_pos rfl
  | cons step steps =>
    -- the empty text stands for no steps at all, so one empty step could not be read back
    have hne : "/".intercalate (step :: steps) ≠ "" := by
      intro hempty
      have hstep : step = "" := by
        cases steps with
        | nil => rwa [String.intercalate_singleton] at hempty
        | cons next steps =>
          rw [String.intercalate_cons_cons, String.append_assoc, String.append_eq_empty_iff] at hempty
          exact hempty.1
      exact (h step List.mem_cons_self).1 hstep
    rw [if_neg hne]
    exact Text.map_ofList_splitOn_intercalate rfl (List.cons_ne_nil _ _) fun t ht => (h t ht).2

/-- The way between two places is read back from its text. -/
theorem stepsOf_intercalate_stepsBetween (hgoal : ∀ name ∈ goal, IsName name)
    (place : List String) :
    stepsOf ("/".intercalate (stepsBetween place goal)) = stepsBetween place goal := by
  apply stepsOf_intercalate
  intro step hstep
  rcases List.mem_append.1 hstep with hup | hdown
  · rw [List.eq_of_mem_replicate hup]
    decide
  · have hname := hgoal step (List.mem_of_mem_drop hdown)
    exact ⟨hname.ne_empty, hname.slash_not_mem⟩

end RawPath

end Weave
