import Weave.Json.Record
import Weave.Proofs.Json.RoundTrip

/-!
# Records read back from their tree

An object that has just the fields of a record gives their values back in order (`record?_tree`);
if its first field is the tag of a tagged record, this field is taken off (`tagged?_tree`). A list
is read back if its items are (`mapM_trees`).
-/

namespace Weave.Json

theorem trees_eq_map (items : List Json) : trees items = items.map tree := by
  induction items with
  | nil => rfl
  | cons item items ih => rw [trees, ih, List.map_cons]

theorem fieldTrees_eq_map (fields : List (String × Json)) :
    fieldTrees fields = fields.map fun field => (some field.1, tree field.2) := by
  induction fields with
  | nil => rfl
  | cons field fields ih => rw [fieldTrees, ih, List.map_cons]

theorem mapM_eq_some_map {α β : Type} {f : α → Option β} {g : α → β} {items : List α}
    (h : ∀ item ∈ items, f item = some (g item)) : items.mapM f = some (items.map g) := by
  induction items with
  | nil => rfl
  | cons item items ih =>
    rw [List.mapM_cons, h item List.mem_cons_self,
      ih fun item' hitem' => h item' (List.mem_cons_of_mem _ hitem')]
    rfl

/-- A list is read back from its trees if its items are. -/
theorem mapM_trees {α : Type} {toJson : α → Json} {read : Tree → Option α} {items : List α}
    (h : ∀ item ∈ items, read (tree (toJson item)) = some item) :
    (trees (items.map toJson)).mapM read = some items := by
  have hread : items.mapM (fun item => read (tree (toJson item))) = some (items.map id) :=
    mapM_eq_some_map h
  rw [trees_eq_map, List.mapM_map, List.mapM_map]
  rw [List.map_id] at hread
  exact hread

section Fields

variable {fields : List (String × Json)}

/-- Of fields in increasing order, only one has a given key. -/
theorem filter_key (hkeys : fields.Pairwise fun field field' => field.1 < field'.1)
    {field : String × Json} (hfield : field ∈ fields) :
    (fields.map fun field => (field.1, tree field.2)).filter (·.1 = field.1)
      = [(field.1, tree field.2)] := by
  induction fields with
  | nil => cases hfield
  | cons first fields ih =>
    obtain ⟨hfirst, hkeys⟩ := List.pairwise_cons.1 hkeys
    rw [List.map_cons, List.filter_cons]
    obtain rfl | hfield := List.mem_cons.1 hfield
    · have hnone : (fields.map fun field => (field.1, tree field.2)).filter (·.1 = field.1)
          = [] := by
        refine List.filter_eq_nil_iff.2 fun other hother => ?_
        obtain ⟨later, hlater, rfl⟩ := List.mem_map.1 hother
        rw [decide_eq_true_iff]
        exact (String.ne_of_lt (hfirst later hlater)).symm
      rw [if_pos (decide_eq_true rfl), hnone]
    · have hne : first.1 ≠ field.1 := String.ne_of_lt (hfirst field hfield)
      rw [if_neg (by rw [decide_eq_true_iff]; exact hne), ih hkeys hfield]

/-- A record that is written with all its fields is read with all of them. -/
theorem record?_tree (hkeys : fields.Pairwise fun field field' => field.1 < field'.1) :
    (tree (.object fields)).record? (fields.map Prod.fst)
      = some (fields.map fun field => some (tree field.2)) := by
  have hfields : (fieldTrees fields).mapM (fun field => field.1.map (·, field.2))
      = some (fields.map fun field => (field.1, tree field.2)) := by
    rw [fieldTrees_eq_map, List.mapM_map]
    exact List.mapM_pure
  refine (congrArg (Option.bind · _) hfields).trans ?_
  rw [Option.bind_some, List.mapM_map]
  refine mapM_eq_some_map fun field hfield => ?_
  dsimp only [Function.comp]
  rw [filter_key hkeys hfield]

/-- The tag of a record is found at its front, and the other fields are its body. -/
theorem tagged?_tree {name tag : String}
    (hkeys : ((name, .string tag) :: fields).Pairwise fun field field' => field.1 < field'.1) :
    (tree (.object ((name, .string tag) :: fields))).tagged? name
      = some (tag, tree (.object fields)) := by
  have hother : ∀ field ∈ fieldTrees fields, field.1 ≠ some name := by
    intro field hfield
    rw [fieldTrees_eq_map] at hfield
    obtain ⟨later, hlater, rfl⟩ := List.mem_map.1 hfield
    rw [Ne, Option.some.injEq]
    exact (String.ne_of_lt (List.rel_of_pairwise_cons hkeys hlater)).symm
  have htag : (fieldTrees fields).filter (·.1 = some name) = [] :=
    List.filter_eq_nil_iff.2 fun field hfield => mt of_decide_eq_true (hother field hfield)
  have hrest : (fieldTrees fields).filter (not ∘ (·.1 = some name)) = fieldTrees fields := by
    refine List.filter_eq_self.2 fun field hfield => ?_
    rw [Function.comp_apply, decide_eq_false (hother field hfield)]
    rfl
  have hparts : (fieldTrees ((name, .string tag) :: fields)).partition (·.1 = some name)
      = ([(some name, .string (some tag))], fieldTrees fields) := by
    rw [List.partition_eq_filter_filter, fieldTrees, tree, List.filter_cons, List.filter_cons,
      if_pos (decide_eq_true rfl), htag, if_neg (by simp), hrest]
  rw [tree, Tree.tagged?, hparts]
  rfl

end Fields

/-- A count is read as it is written. -/
theorem uint32?_tree (n : UInt32) : (tree (.int n.toNat)).uint32? = some n := by
  have hvalue : (numeral n.toNat).value? = some (.int n.toNat) :=
    value?_numeral (by omega) (by have := n.toNat_lt; omega)
  have hfits : 0 ≤ (n.toNat : Int) ∧ (n.toNat : Int) < Int.pow 2 32 := by
    have hpow : Int.pow 2 32 = 2 ^ 32 := rfl
    have hlt := n.toNat_lt
    omega
  rw [tree, Tree.uint32?, hvalue]
  dsimp only
  rw [if_pos hfits, Int.toNat_natCast, UInt32.ofNat_toNat]

/-- Fields that are free to be any are read as they are written. -/
theorem freeFields?_tree {fields : List (String × Json)} (h : Kept depthLimit (.object fields)) :
    (tree (.object fields)).freeFields? = some fields := by
  rw [Tree.freeFields?, value?_tree h]

end Weave.Json
