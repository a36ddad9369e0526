import Weave.Path
import Weave.Proofs.Text.Trimming

/-!
# The places that paths lead to

A path leads from place to place, piece by piece (`stepTo`). Where it ends up is what its parts
resolve to (`names_eq_foldl`), so that two paths denote one place exactly if they have the same
names. The pieces of a joined path are those of its two parts, one after the other (`pieces_join`).
-/

namespace Weave.Path

/-! ## Piece by piece -/

/-- The place that one piece of a path leads to. -/
def stepTo (place : List String) (piece : String) : List String :=
  if piece = "" ∨ piece = "." then place
  else if piece = ".." then place.dropLast
  else place ++ [piece]

/-- The place that a path starts from, seen from the directory `current`. -/
def start (current : List String) (p : Path) : List String :=
  if p.isAbsolute then [] else current

/-- The empty piece leads nowhere else. -/
theorem stepTo_empty (place : List String) : stepTo place "" = place :=
  if_pos (Or.inl rfl)

/-- A piece that stands for no part leads nowhere else. -/
theorem stepTo_of_ofPiece?_eq_none {piece : List Char} (h : Part.ofPiece? piece = none)
    (place : List String) : stepTo place (String.ofList piece) = place := by
  unfold Part.ofPiece? at h
  split at h
  · exact stepTo_empty place
  · exact if_pos (.inr rfl)
  · cases h
  · cases h

/-- A piece leads where the part does that it stands for; a part is read with the nearest name
first. -/
theorem stepTo_of_ofPiece?_eq_some {piece : List Char} {part : Part} {names : List String}
    (h : Part.ofPiece? piece = some part) :
    stepTo names.reverse (String.ofList piece) = (step names part).reverse := by
  unfold Part.ofPiece? at h
  split at h
  · cases h
  · cases h
  · cases h
    show names.reverse.dropLast = names.tail.reverse
    rw [List.dropLast_reverse]
  · next hempty hhere hup =>
    -- a name: the piece is none of the three that the other cases are about
    cases h
    have hpiece : ∀ other : List Char, piece ≠ other → String.ofList piece ≠ String.ofList other := by
      intro other hne heq
      exact hne (String.ofList_injective heq)
    have hplace : ¬ (String.ofList piece = "" ∨ String.ofList piece = ".") :=
      not_or.2 ⟨hpiece [] hempty, hpiece ['.'] hhere⟩
    rw [stepTo, if_neg hplace, if_neg (hpiece ['.', '.'] hup), step, List.reverse_cons]

theorem foldl_partsFrom (n : Nat) (pieces : List (List Char)) (names : List String) :
    ((((partsFrom n pieces).map (·.1)).foldl step names).reverse)
      = (pieces.map String.ofList).foldl stepTo names.reverse := by
  induction pieces generalizing n names with
  | nil => rfl
  | cons piece pieces ih =>
    rw [partsFrom, List.map_cons, List.foldl_cons]
    cases hpart : Part.ofPiece? piece with
    | none => rw [stepTo_of_ofPiece?_eq_none hpart, ← ih]
    | some part => rw [stepTo_of_ofPiece?_eq_some hpart, ← ih, List.map_cons, List.foldl_cons]

/-- A path is absolute exactly if nothing stands before its first slash. -/
theorem isAbsolute_iff {p : Path} :
    p.isAbsolute = true ↔ ∃ next rest, p.pieces = [] :: next :: rest := by
  unfold isAbsolute pieces
  cases p.text.toList with
  | nil => simp
  | cons c s =>
    rw [List.splitOn_cons_eq_if_modifyHead]
    by_cases hc : c = '/'
    · obtain ⟨next, rest, hnext⟩ := List.exists_cons_of_ne_nil (List.splitOn_ne_nil '/' s)
      simp [hc, hnext]
    · obtain ⟨next, rest, hnext⟩ := List.exists_cons_of_ne_nil (List.splitOn_ne_nil '/' s)
      simp [hc, hnext]

/-- The names of a path are those of the place that its pieces lead to. -/
theorem names_eq_foldl (current : List String) (p : Path) :
    p.names current = (p.pieces.map String.ofList).foldl stepTo (p.start current) := by
  unfold names parts partsWithEnds start
  -- the three ways to read the first pieces: from the root, from here, or none of these
  split
  · next next rest hpieces =>
    have habsolute : p.isAbsolute = true := isAbsolute_iff.2 ⟨next, rest, hpieces⟩
    rw [if_pos habsolute, hpieces]
    exact foldl_partsFrom 1 (next :: rest) []
  · next rest hpieces =>
    have hrelative : ¬ p.isAbsolute = true := by
      rw [isAbsolute_iff]
      intro ⟨next, more, h⟩
      rw [hpieces] at h
      cases h
    rw [if_neg hrelative, hpieces]
    have hrest := foldl_partsFrom 2 rest current.reverse
    rw [List.reverse_reverse] at hrest
    exact hrest
  · next hroot hhere =>
    have hrelative : ¬ p.isAbsolute = true := by
      rw [isAbsolute_iff]
      intro ⟨next, rest, h⟩
      exact hroot next rest h
    rw [if_neg hrelative, foldl_partsFrom, List.reverse_reverse]

/-- Empty pieces at the end lead nowhere else. -/
theorem foldl_dropTrailing (pieces : List (List Char)) (place : List String) :
    ((Text.dropTrailing List.isEmpty pieces).map String.ofList).foldl stepTo place
      = (pieces.map String.ofList).foldl stepTo place := by
  rw [Text.dropTrailing_eq_rdropWhile]
  induction pieces using List.reverseRecOn with
  | nil => rfl
  | append_singleton pieces piece ih =>
    cases piece with
    | nil =>
      rw [List.rdropWhile_concat_pos _ _ _ rfl, ih, List.map_append, List.foldl_append]
      exact (stepTo_empty _).symm
    | cons c s => rw [List.rdropWhile_concat_neg _ _ _ Bool.false_ne_true]

/-! ## Joined paths -/

variable {dir : Path} {next : String}

/-- What stands in front of another path that continues this one. -/
def lead (dir : Path) : String :=
  if dir.text.isEmpty || dir.text.toList.getLast? == some '/' then dir.text else dir.text ++ "/"

theorem join_eq (h : ¬ (Path.mk next).isAbsolute = true) : dir.join next = ⟨dir.lead ++ next⟩ := by
  rw [join, if_neg h, lead]
  split <;> rfl

/-- Nothing stands in front, or something that ends with a slash. -/
theorem lead_cases (dir : Path) :
    dir.text = "" ∧ dir.lead = "" ∨
      ∃ front, dir.lead.toList = front ++ ['/'] ∧ dir.lead.toList.head? = dir.text.toList.head? := by
  unfold lead
  split
  · next h =>
    rw [Bool.or_eq_true, beq_iff_eq] at h
    rcases h with h | h
    · have hempty : dir.text = "" := by simpa using h
      exact .inl ⟨hempty, hempty⟩
    · obtain ⟨front, hfront⟩ := List.getLast?_eq_some_iff.1 h
      exact .inr ⟨front, hfront, rfl⟩
  · next h =>
    rw [Bool.or_eq_true, not_or] at h
    have hne : dir.text.toList ≠ [] := by simpa using h.1
    refine .inr ⟨dir.text.toList, by rw [String.toList_append]; rfl, ?_⟩
    rw [String.toList_append, List.head?_append, Option.or_of_isSome (by simpa using hne)]

theorem isAbsolute_join (h : ¬ (Path.mk next).isAbsolute = true) :
    (dir.join next).isAbsolute = dir.isAbsolute := by
  rw [join_eq h]
  rcases lead_cases dir with ⟨hdir, hlead⟩ | ⟨front, hlead, hhead⟩
  · have hrelative : dir.isAbsolute = false := by
      rw [isAbsolute, hdir]
      rfl
    rw [hlead, String.empty_append, hrelative]
    exact Bool.eq_false_iff.2 h
  · have hne : dir.lead.toList ≠ [] := by
      rw [hlead]
      exact List.append_ne_nil_of_right_ne_nil _ (List.cons_ne_nil _ _)
    rw [isAbsolute, isAbsolute, String.toList_append, List.head?_append,
      Option.or_of_isSome (by simpa using hne), hhead]

/-- The pieces of a joined path are those of the first path and then those of the second. -/
theorem pieces_join (h : ¬ (Path.mk next).isAbsolute = true) :
    (dir.join next).pieces = (Path.mk dir.lead).pieces.dropLast ++ (Path.mk next).pieces := by
  rw [join_eq h]
  rcases lead_cases dir with ⟨-, hlead⟩ | ⟨front, hlead, -⟩
  · rw [hlead, String.empty_append]
    rfl
  · have hdrop : (Path.mk dir.lead).pieces.dropLast = front.splitOn '/' := by
      rw [pieces, hlead, List.splitOn_append_cons_self, List.splitOn_nil, List.dropLast_concat]
    rw [hdrop, pieces, pieces, String.toList_append, hlead, List.append_assoc,
      List.singleton_append, List.splitOn_append_cons_self]

/-- A name without slashes is one piece. -/
theorem pieces_of_not_mem (h : '/' ∉ next.toList) : (Path.mk next).pieces = [next.toList] :=
  List.splitOn_eq_singleton h

theorem not_isAbsolute_of_not_mem (h : '/' ∉ next.toList) :
    ¬ (Path.mk next).isAbsolute = true := by
  rw [isAbsolute_iff, pieces_of_not_mem h]
  intro ⟨second, rest, heq⟩
  have hlength := congrArg List.length heq
  simp at hlength

/-- A name in a directory has its place directly behind the names of the directory. -/
theorem names_join (h : '/' ∉ next.toList) (hempty : next ≠ "") (hhere : next ≠ ".")
    (hup : next ≠ "..") (current : List String) :
    (dir.join next).names current = dir.names current ++ [next] := by
  have hrelative := not_isAbsolute_of_not_mem h
  have hdir : ((Path.mk dir.lead).pieces.dropLast.map String.ofList).foldl stepTo
      (dir.start current) = dir.names current := by
    have hslash (front : List Char) : (front ++ ['/']).splitOn '/' = front.splitOn '/' ++ [[]] := by
      rw [List.splitOn_append_cons_self, List.splitOn_nil]
    rw [names_eq_foldl, lead]
    split
    · next h =>
      -- a slash at the end makes an empty piece, which leads nowhere else
      rw [Bool.or_eq_true, beq_iff_eq] at h
      rcases h with h | h
      · have hnil : dir.pieces = [[]] := by
          rw [pieces, String.isEmpty_iff.1 h]
          rfl
        show ((dir.pieces.dropLast).map String.ofList).foldl stepTo _ = _
        rw [hnil]
        exact (stepTo_empty _).symm
      · obtain ⟨front, hfront⟩ := List.getLast?_eq_some_iff.1 h
        have hpieces : dir.pieces = front.splitOn '/' ++ [[]] := by rw [pieces, hfront, hslash]
        show ((dir.pieces.dropLast).map String.ofList).foldl stepTo _ = _
        rw [hpieces, List.dropLast_concat, List.map_append, List.foldl_append]
        exact (stepTo_empty _).symm
    · have hpieces : (Path.mk (dir.text ++ "/")).pieces = dir.pieces ++ [[]] := by
        rw [pieces, String.toList_append]
        exact hslash dir.text.toList
      rw [hpieces, List.dropLast_concat]
  have hstart : (dir.join next).start current = dir.start current := by
    rw [start, start, isAbsolute_join hrelative]
  rw [names_eq_foldl, hstart, pieces_join hrelative, pieces_of_not_mem h, List.map_append,
    List.foldl_append, hdir, List.map_singleton, List.foldl_cons, List.foldl_nil,
    String.ofList_toList, stepTo, if_neg (not_or.2 ⟨hempty, hhere⟩), if_neg hup]

end Weave.Path
