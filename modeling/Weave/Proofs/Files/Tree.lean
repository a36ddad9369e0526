import Weave.Files.Tree
import Weave.Proofs.Path.Places

/-!
# What a file operation changes

A tree is looked at through what stands at each place (`get?_put`, `get?_erase`) and, for regular
files, through their contents (`file?`). `Frame places before after` says that nothing but directories
has been made and nothing but the files at `places` has changed; every operation keeps such a frame,
and frames compose. Whatever a path led to before, it leads to within a frame, since directories
stay (`Frame.locate`).
-/

namespace Weave.FileTree

variable {tree : FileTree} {place other : List String}

/-! ## What stands at a place -/

@[simp]
theorem get?_nil (tree : FileTree) : tree.get? [] = some .directory := rfl

theorem ne_nil_of_get?_ne (h : tree.get? place ≠ some .directory) : place ≠ [] := by
  intro hnil
  rw [hnil] at h
  exact h rfl

theorem get?_of_ne_nil (h : place ≠ []) : tree.get? place = tree.entries.lookup place := by
  rw [get?, if_neg (by simpa using h)]

/-- The first entry for a place counts. -/
theorem lookup_cons (entries : List (List String × FileEntry)) (key : List String)
    (entry : FileEntry) (other : List String) :
    ((key, entry) :: entries).lookup other
      = if other = key then some entry else entries.lookup other := by
  rw [List.lookup_cons]
  by_cases hother : other = key
  · rw [if_pos hother, hother, beq_self_eq_true]
  · rw [if_neg hother, beq_false_of_ne hother]

/-- Entries at other places do not matter. -/
theorem lookup_filter (entries : List (List String × FileEntry)) (place other : List String) :
    (entries.filter (·.1 ≠ place)).lookup other
      = if other = place then none else entries.lookup other := by
  induction entries with
  | nil => simp
  | cons pair entries ih =>
    obtain ⟨key, entry⟩ := pair
    by_cases hkey : key = place
    · -- the entry is filtered out, and would be found at the place itself only
      rw [List.filter_cons_of_neg (by simpa using hkey), ih, lookup_cons, hkey]
      by_cases hother : other = place
      · rw [if_pos hother, if_pos hother]
      · rw [if_neg hother, if_neg hother, if_neg hother]
    · rw [List.filter_cons_of_pos (by simpa using hkey), lookup_cons, lookup_cons, ih]
      by_cases hother : other = key
      · have hne : other ≠ place := by
          rw [hother]
          exact hkey
        rw [if_pos hother, if_neg hne, if_pos hother]
      · rw [if_neg hother, if_neg hother]

/-- Putting something at a place changes this place only. -/
theorem get?_put (h : place ≠ []) (entry : FileEntry) (other : List String) :
    (tree.put place entry).get? other
      = if other = place then some entry else tree.get? other := by
  by_cases hnil : other = []
  · -- the root has no entry, and stays a directory
    rw [hnil, get?_nil, get?_nil, if_neg (Ne.symm h)]
  · rw [get?_of_ne_nil hnil, get?_of_ne_nil hnil, put, lookup_cons, lookup_filter]
    by_cases hother : other = place
    · rw [if_pos hother, if_pos hother]
    · rw [if_neg hother, if_neg hother, if_neg hother]

theorem get?_erase (h : place ≠ []) (other : List String) :
    (tree.erase place).get? other = if other = place then none else tree.get? other := by
  by_cases hnil : other = []
  · rw [hnil, get?_nil, get?_nil, if_neg (Ne.symm h)]
  · rw [get?_of_ne_nil hnil, get?_of_ne_nil hnil, erase, lookup_filter]

/-- The content of the regular file at a place, if there is one. -/
def file? (tree : FileTree) (place : List String) : Option ByteArray :=
  match tree.get? place with
  | some (.file content) => some content
  | _ => none

theorem file?_eq_some_iff {content : ByteArray} :
    tree.file? place = some content ↔ tree.get? place = some (.file content) := by
  unfold file?
  split
  · next found h => rw [h, Option.some_inj, Option.some_inj, FileEntry.file.injEq]
  · next h => exact iff_of_false (by simp) (h content)

theorem get?_ne_of_file?_eq_some {content : ByteArray} (h : tree.file? place = some content) :
    tree.get? place ≠ some .directory := by
  rw [file?_eq_some_iff.1 h]
  simp

theorem file?_put (h : place ≠ []) (entry : FileEntry) (hother : other ≠ place) :
    (tree.put place entry).file? other = tree.file? other := by
  rw [file?, get?_put h, if_neg hother, file?]

theorem file?_put_self (h : place ≠ []) (content : ByteArray) :
    (tree.put place (.file content)).file? place = some content := by
  rw [file?_eq_some_iff, get?_put h, if_pos rfl]

theorem file?_erase (h : place ≠ []) (hother : other ≠ place) :
    (tree.erase place).file? other = tree.file? other := by
  rw [file?, get?_erase h, if_neg hother, file?]

/-! ## Frames -/

/-- Directories have been made, and only files at these places have changed: every directory is
still there, and so is every other file, with its content. -/
structure Frame (places : List (List String)) (before after : FileTree) : Prop where
  directory : ∀ place, before.get? place = some .directory → after.get? place = some .directory
  file : ∀ place, place ∉ places → after.file? place = before.file? place

namespace Frame

variable {places more : List (List String)} {before middle after : FileTree}

theorem refl (places : List (List String)) (tree : FileTree) : Frame places tree tree :=
  ⟨fun _ h => h, fun _ _ => rfl⟩

theorem trans (h : Frame places before middle) (h' : Frame more middle after) :
    Frame (places ++ more) before after := by
  constructor
  · intro place hplace
    exact h'.directory place (h.directory place hplace)
  · intro place hplace
    rw [List.mem_append, not_or] at hplace
    rw [h'.file place hplace.2, h.file place hplace.1]

/-- More places can be left open. -/
theorem mono (h : Frame places before after) (hsub : places ⊆ more) : Frame more before after :=
  ⟨h.directory, fun place hplace => h.file place fun hmem => hplace (hsub hmem)⟩

/-- A directory is made where nothing stands. -/
theorem put_directory (h : tree.get? place = none) :
    Frame [] tree (tree.put place .directory) := by
  have hne : place ≠ [] := by
    intro hnil
    rw [hnil, get?_nil] at h
    cases h
  constructor
  · intro other hother
    rw [get?_put hne, hother]
    split <;> rfl
  · intro other _
    by_cases hother : other = place
    · -- neither nothing nor a directory has a content
      rw [hother, file?, file?, get?_put hne, if_pos rfl, h]
    · exact file?_put hne .directory hother

/-- A file is written where no directory stands. -/
theorem put_file (h : tree.get? place ≠ some .directory) (content : ByteArray) :
    Frame [place] tree (tree.put place (.file content)) := by
  have hne : place ≠ [] := ne_nil_of_get?_ne h
  constructor
  · intro other hother
    have hplace : other ≠ place := by
      intro heq
      exact h (heq ▸ hother)
    rw [get?_put hne, if_neg hplace, hother]
  · intro other hother
    exact file?_put hne _ (fun heq => hother (List.mem_singleton.2 heq))

/-- A file is taken away. -/
theorem erase (h : tree.get? place ≠ some .directory) : Frame [place] tree (tree.erase place) := by
  have hne : place ≠ [] := ne_nil_of_get?_ne h
  constructor
  · intro other hother
    have hplace : other ≠ place := by
      intro heq
      exact h (heq ▸ hother)
    rw [get?_erase hne, if_neg hplace, hother]
  · intro other hother
    exact file?_erase hne (fun heq => hother (List.mem_singleton.2 heq))

end Frame

/-! ## Following a path -/

/-- A piece leads on from a directory, if it is not too long for a name. -/
theorem walk_cons_eq_ok_iff {piece : String} {rest : List String} {found : List String} :
    tree.walk place (piece :: rest) = .ok found ↔
      tree.get? place = some .directory ∧ piece.utf8ByteSize ≤ nameLimit ∧
        tree.walk (Path.stepTo place piece) rest = .ok found := by
  rw [walk, Path.stepTo]
  split
  · next h => simp [h]
  · next h => simp [h]
  · next h =>
    rw [h]
    split
    · next hhere =>
      have hsize : piece.utf8ByteSize ≤ nameLimit := by
        obtain rfl | rfl := hhere <;> decide
      simp [hsize]
    · split
      · next hup =>
        have hsize : piece.utf8ByteSize ≤ nameLimit := by
          rw [hup]
          decide
        simp [hsize]
      · split
        · next hlong =>
          have hsize : ¬ piece.utf8ByteSize ≤ nameLimit := Nat.not_le_of_lt hlong
          simp [hsize]
        · next hlong => simp [Nat.le_of_not_lt hlong]

/-- A path can be followed in two parts, if there is a place between them. -/
theorem walk_append_eq_ok_iff {pieces rest found : List String} :
    tree.walk place (pieces ++ rest) = .ok found ↔
      ∃ middle, tree.walk place pieces = .ok middle ∧ tree.walk middle rest = .ok found := by
  induction pieces generalizing place with
  | nil => simp [walk]
  | cons piece pieces ih =>
    simp only [List.cons_append, walk_cons_eq_ok_iff, ih]
    constructor
    · intro ⟨hplace, hsize, middle, hpieces, hrest⟩
      exact ⟨middle, ⟨hplace, hsize, hpieces⟩, hrest⟩
    · intro ⟨middle, ⟨hplace, hsize, hpieces⟩, hrest⟩
      exact ⟨hplace, hsize, middle, hpieces, hrest⟩

/-- Where pieces lead to does not hang on the tree, as long as they lead somewhere. -/
theorem eq_foldl_of_walk {pieces found : List String} (h : tree.walk place pieces = .ok found) :
    found = pieces.foldl Path.stepTo place := by
  induction pieces generalizing place with
  | nil => exact (Except.ok.inj h).symm
  | cons piece pieces ih => exact ih (walk_cons_eq_ok_iff.1 h).2.2

/-- Climbing leads where the pieces lead that it takes. -/
theorem foldl_climb (place pieces : List String) :
    (climb place pieces).2.foldl Path.stepTo (climb place pieces).1
      = pieces.foldl Path.stepTo place := by
  induction pieces generalizing place with
  | nil => rfl
  | cons piece pieces ih =>
    rw [climb, List.foldl_cons, Path.stepTo]
    split
    · exact ih place
    · next hhere =>
      split
      · exact ih place.dropLast
      · next hup => rw [List.foldl_cons, Path.stepTo, if_neg hhere, if_neg hup]

/-- What can be called a name stops climbing. -/
theorem climb_append_name {name : String} (hhere : ¬ (name = "" ∨ name = ".")) (hup : name ≠ "..")
    (place pieces : List String) :
    climb place (pieces ++ [name]) = ((climb place pieces).1, (climb place pieces).2 ++ [name]) := by
  induction pieces generalizing place with
  | nil =>
    show climb place [name] = (place, [name])
    rw [climb, if_neg hhere, if_neg hup]
  | cons piece pieces ih =>
    rw [List.cons_append, climb, climb]
    split
    · exact ih place
    · split
      · exact ih place.dropLast
      · rfl

section Follow

variable {current : List String} {path : Path}

/-- What a path denotes is what stands at its place, unless it leads up only. -/
theorem denoted?_of_climbs_eq_false (h : climbs path = false) (place : List String) :
    tree.denoted? path place = tree.get? place := by
  rw [denoted?, h]
  rfl

theorem climbs_eq_false_of_denoted?_ne (h : tree.denoted? path place ≠ some .directory) :
    climbs path = false := by
  rw [Bool.eq_false_iff]
  intro hclimbs
  exact h (if_pos hclimbs)

/-- A path can be followed if it is a name for the system at all and its pieces lead on. -/
theorem follow_eq_ok_iff {pieces : List (List Char)} {found : List String} :
    tree.follow current path pieces = .ok found ↔
      '\x00' ∉ path.text.toList ∧ path.text ≠ "" ∧ path.text.utf8ByteSize < pathLimit ∧
        tree.walk (climb (path.start current) (pieces.map String.ofList)).1
          (climb (path.start current) (pieces.map String.ofList)).2 = .ok found := by
  unfold follow Path.start
  split
  · next h => simp [List.contains_iff_mem.1 h]
  · next h =>
    have hnul : '\x00' ∉ path.text.toList := by
      intro hmem
      exact h (List.contains_iff_mem.2 hmem)
    split
    · next hempty => simp [String.isEmpty_iff.1 hempty]
    · next hempty =>
      have hne : path.text ≠ "" := by
        intro heq
        exact hempty (String.isEmpty_iff.2 heq)
      split
      · next hlong => simp [Nat.not_lt.2 hlong]
      · next hlong => simp [hnul, hne, Nat.not_le.1 hlong]

/-- A path that leads somewhere leads to the place that its names tell. -/
theorem eq_names_of_locate {found : List String} (h : tree.locate current path = .ok found) :
    found = path.names current := by
  rw [Path.names_eq_foldl, ← foldl_climb]
  exact eq_foldl_of_walk (follow_eq_ok_iff.1 h).2.2.2

/-- So does a path of something that is still to be made. -/
theorem eq_names_of_locateNew {found : List String} (h : tree.locateNew current path = .ok found) :
    found = path.names current := by
  rw [Path.names_eq_foldl, ← Path.foldl_dropTrailing, ← foldl_climb]
  exact eq_foldl_of_walk (follow_eq_ok_iff.1 h).2.2.2

/-- A file is read exactly if the path leads to its place, and does not lead up only. -/
theorem read_eq_ok_iff {content : ByteArray} :
    tree.read current path = .ok content ↔ climbs path = false ∧
      ∃ place, tree.locate current path = .ok place ∧ tree.file? place = some content := by
  simp only [file?_eq_some_iff]
  unfold read
  cases tree.locate current path with
  | error cause => simp
  | ok place =>
    cases hclimbs : climbs path with
    | true => simp [denoted?, hclimbs]
    | false =>
      simp only [denoted?_of_climbs_eq_false hclimbs]
      cases hentry : tree.get? place with
      | none => simp [hentry]
      | some entry => cases entry <;> simp [hentry]

theorem exists_read_of_readText {text : String} (h : tree.readText current path = .ok text) :
    ∃ content, tree.read current path = .ok content := by
  unfold readText at h
  split at h
  · cases h
  · next content hread => exact ⟨content, hread⟩

end Follow

/-! ## Names in a directory -/

section Join

variable {current : List String} {dir : Path} {name other : String}

/-- What a name in a directory leads to does not hang on whether it has to be made. -/
theorem locateNew_join (hslash : '/' ∉ name.toList) (hne : name ≠ "") :
    tree.locateNew current (dir.join name) = tree.locate current (dir.join name) := by
  have hrelative := Path.not_isAbsolute_of_not_mem hslash
  unfold locateNew locate
  rw [Path.pieces_join hrelative, Path.pieces_of_not_mem hslash, Text.dropTrailing_eq_self]
  simpa using hne

/-- A name of three characters or more is none of the special ones. -/
theorem not_special_of_length (h : 3 ≤ name.length) :
    ¬ (name = "" ∨ name = ".") ∧ name ≠ ".." := by
  have hne : ∀ other : String, other.length < 3 → name ≠ other := by
    rintro other hlength rfl
    exact absurd h (Nat.not_le_of_lt hlength)
  exact ⟨not_or.2 ⟨hne _ (by decide), hne _ (by decide)⟩, hne _ (by decide)⟩

/-- The pieces in front of a name in a directory, and the name behind them. -/
theorem climb_join (hslash : '/' ∉ name.toList) (hlength : 3 ≤ name.length) (place : List String) :
    climb place ((dir.join name).pieces.map String.ofList)
      = ((climb place ((Path.mk dir.lead).pieces.dropLast.map String.ofList)).1,
        (climb place ((Path.mk dir.lead).pieces.dropLast.map String.ofList)).2 ++ [name]) := by
  obtain ⟨hhere, hup⟩ := not_special_of_length hlength
  rw [Path.pieces_join (Path.not_isAbsolute_of_not_mem hslash), Path.pieces_of_not_mem hslash,
    List.map_append, List.map_singleton, String.ofList_toList, climb_append_name hhere hup]

/-- A path with such a name at its end does not lead up only. -/
theorem climbs_join (hslash : '/' ∉ name.toList) (hlength : 3 ≤ name.length) :
    climbs (dir.join name) = false := by
  rw [climbs, climb_join hslash hlength]
  exact List.isEmpty_eq_false_iff.2 (List.append_ne_nil_of_right_ne_nil _ (List.cons_ne_nil _ _))

/-- If a name in a directory leads somewhere, then so does a shorter one with no other
characters. -/
theorem locate_join_of_subset (hslash : '/' ∉ name.toList) (hsub : other.toList ⊆ name.toList)
    (hsize : other.utf8ByteSize ≤ name.utf8ByteSize) (hlength : 3 ≤ name.length)
    (hlength' : 3 ≤ other.length) {found : List String}
    (h : tree.locate current (dir.join name) = .ok found) :
    tree.locate current (dir.join other) = .ok ((dir.join other).names current) := by
  have hrelative := Path.not_isAbsolute_of_not_mem hslash
  have hother : '/' ∉ other.toList := fun hmem => hslash (hsub hmem)
  have hrelative' := Path.not_isAbsolute_of_not_mem hother
  obtain ⟨hnul, -, hlong, hwalk⟩ := follow_eq_ok_iff.1 h
  rw [Path.start, Path.isAbsolute_join hrelative, climb_join hslash hlength,
    walk_append_eq_ok_iff] at hwalk
  -- both names are looked up in the directory `middle` that the path in front leads to
  obtain ⟨middle, hdir, hname⟩ := hwalk
  obtain ⟨hmiddle, hlimit, -⟩ := walk_cons_eq_ok_iff.1 hname
  rw [Path.join_eq hrelative, String.toList_append, List.mem_append, not_or] at hnul
  rw [Path.join_eq hrelative, String.utf8ByteSize_append] at hlong
  have hwalk' : tree.walk
      (climb ((dir.join other).start current) ((dir.join other).pieces.map String.ofList)).1
      (climb ((dir.join other).start current) ((dir.join other).pieces.map String.ofList)).2
        = .ok (Path.stepTo middle other) := by
    rw [Path.start, Path.isAbsolute_join hrelative', climb_join hother hlength',
      walk_append_eq_ok_iff]
    exact ⟨middle, hdir, walk_cons_eq_ok_iff.2 ⟨hmiddle, hsize.trans hlimit, rfl⟩⟩
  have hlocate : tree.locate current (dir.join other) = .ok (Path.stepTo middle other) := by
    refine follow_eq_ok_iff.2 ⟨?_, ?_, ?_, hwalk'⟩
    · rw [Path.join_eq hrelative', String.toList_append, List.mem_append, not_or]
      exact ⟨hnul.1, fun hmem => hnul.2 (hsub hmem)⟩
    · rw [Path.join_eq hrelative']
      intro hempty
      exact (not_special_of_length hlength').1 (Or.inl (String.append_eq_empty_iff.1 hempty).2)
    · rw [Path.join_eq hrelative', String.utf8ByteSize_append]
      exact (Nat.add_le_add_left hsize _).trans_lt hlong
  rw [hlocate, eq_names_of_locate hlocate]

end Join

namespace Frame

variable {places : List (List String)} {before after : FileTree} {current : List String}
  {path : Path}

/-- Pieces lead where they led before, since directories stay. -/
theorem walk (h : Frame places before after) {pieces found : List String}
    (hwalk : before.walk place pieces = .ok found) : after.walk place pieces = .ok found := by
  induction pieces generalizing place with
  | nil => exact hwalk
  | cons piece pieces ih =>
    obtain ⟨hplace, hsize, hrest⟩ := walk_cons_eq_ok_iff.1 hwalk
    exact walk_cons_eq_ok_iff.2 ⟨h.directory place hplace, hsize, ih hrest⟩

/-- Directories stay, so a path leads where it did. -/
theorem locate (h : Frame places before after) {found : List String}
    (hlocate : before.locate current path = .ok found) :
    after.locate current path = .ok found := by
  obtain ⟨hnul, hne, hlong, hwalk⟩ := follow_eq_ok_iff.1 hlocate
  exact follow_eq_ok_iff.2 ⟨hnul, hne, hlong, h.walk hwalk⟩

/-- A file that can be read and is not one of those that change is read as before. -/
theorem read (h : Frame places before after) {content : ByteArray}
    (hread : before.read current path = .ok content) (hpath : path.names current ∉ places) :
    after.read current path = .ok content := by
  obtain ⟨hclimbs, place, hlocate, hfile⟩ := read_eq_ok_iff.1 hread
  have hplace : place ∉ places := by
    rw [eq_names_of_locate hlocate]
    exact hpath
  exact read_eq_ok_iff.2 ⟨hclimbs, place, h.locate hlocate, (h.file place hplace).trans hfile⟩

end Frame

/-! ## The operations -/

section Operations

variable {current : List String} {path source goal : Path} {after : FileTree}

/-- Making a directory lets one stand where nothing stood. -/
theorem makeDirectory_eq_ok (h : tree.makeDirectory current path = .ok after) :
    tree.get? (path.names current) = none ∧ after = tree.put (path.names current) .directory := by
  unfold makeDirectory at h
  split at h
  · cases h
  · next place hlocate =>
    obtain rfl := eq_names_of_locateNew hlocate
    split at h
    · cases h
    · next hnone =>
      have hclimbs : climbs path = false :=
        climbs_eq_false_of_denoted?_ne (by rw [hnone]; simp)
      rw [denoted?_of_climbs_eq_false hclimbs] at hnone
      exact ⟨hnone, (Except.ok.inj h).symm⟩

/-- Making a directory changes no file. -/
theorem frame_makeDirectory (h : tree.makeDirectory current path = .ok after) :
    Frame [] tree after := by
  obtain ⟨hnone, rfl⟩ := makeDirectory_eq_ok h
  exact Frame.put_directory hnone

/-- Writing a file replaces what stood at its place, unless that was a directory. -/
theorem write_eq_ok {content : ByteArray} (h : tree.write current path content = .ok after) :
    tree.locateNew current path = .ok (path.names current) ∧
      tree.get? (path.names current) ≠ some .directory ∧
      after = tree.put (path.names current) (.file content) := by
  unfold write at h
  split at h
  · cases h
  · next place hlocate =>
    obtain rfl := eq_names_of_locateNew hlocate
    split at h
    · cases h
    · split at h
      · cases h
      · next hentry =>
        have hclimbs : climbs path = false := climbs_eq_false_of_denoted?_ne hentry
        rw [denoted?_of_climbs_eq_false hclimbs] at hentry
        exact ⟨hlocate, hentry, (Except.ok.inj h).symm⟩

/-- Writing changes the file at this path only. -/
theorem frame_write {content : ByteArray} (h : tree.write current path content = .ok after) :
    Frame [path.names current] tree after := by
  obtain ⟨-, hentry, rfl⟩ := write_eq_ok h
  exact Frame.put_file hentry content

/-- Nothing stands anywhere else that did not before. -/
theorem get?_write_of_ne {content : ByteArray} (h : tree.write current path content = .ok after)
    (hother : other ≠ path.names current) : after.get? other = tree.get? other := by
  obtain ⟨-, hentry, rfl⟩ := write_eq_ok h
  rw [get?_put (ne_nil_of_get?_ne hentry), if_neg hother]

/-- What has been written is there. -/
theorem file?_write {content : ByteArray} (h : tree.write current path content = .ok after) :
    after.file? (path.names current) = some content := by
  obtain ⟨-, hentry, rfl⟩ := write_eq_ok h
  exact file?_put_self (ne_nil_of_get?_ne hentry) content

/-- Moving a file takes it away and puts it where the new path leads, unless a directory is there. -/
theorem moveFile_eq_ok (h : tree.moveFile current source goal = .ok after) :
    ∃ content, tree.file? (source.names current) = some content ∧
      climbs goal = false ∧ tree.locate current goal = .ok (goal.names current) ∧
      tree.get? (goal.names current) ≠ some .directory ∧
      after = (tree.erase (source.names current)).put (goal.names current) (.file content) := by
  unfold moveFile at h
  split at h
  · cases h
  · cases h
  · next s g hsource hgoal =>
    obtain rfl := eq_names_of_locate hsource
    obtain rfl := eq_names_of_locate hgoal
    split at h
    · cases h
    · cases h
    · cases h
    · next content hfrom hto =>
      have hsourceClimbs : climbs source = false :=
        climbs_eq_false_of_denoted?_ne (by rw [hfrom]; simp)
      have hgoalClimbs : climbs goal = false := climbs_eq_false_of_denoted?_ne hto
      rw [denoted?_of_climbs_eq_false hsourceClimbs] at hfrom
      rw [denoted?_of_climbs_eq_false hgoalClimbs] at hto
      exact ⟨content, file?_eq_some_iff.2 hfrom, hgoalClimbs, hgoal, hto, (Except.ok.inj h).symm⟩

/-- Moving a file changes nothing but the two places. -/
theorem frame_moveFile (h : tree.moveFile current source goal = .ok after) :
    Frame [source.names current, goal.names current] tree after := by
  obtain ⟨content, hfrom, -, -, hto, rfl⟩ := moveFile_eq_ok h
  have hfile := get?_ne_of_file?_eq_some hfrom
  have hgone : (tree.erase (source.names current)).get? (goal.names current)
      ≠ some .directory := by
    rw [get?_erase (ne_nil_of_get?_ne hfile)]
    split
    · simp
    · exact hto
  -- first the file is taken away, so that it may be put back at its own place
  exact (Frame.erase hfile).trans (Frame.put_file hgone content)

/-- What has been moved to another place is gone from the old one. -/
theorem get?_moveFile_source (hne : source.names current ≠ goal.names current)
    (h : tree.moveFile current source goal = .ok after) :
    after.get? (source.names current) = none := by
  obtain ⟨content, hfrom, -, -, hto, rfl⟩ := moveFile_eq_ok h
  have hfile := get?_ne_of_file?_eq_some hfrom
  rw [get?_put (ne_nil_of_get?_ne hto), if_neg hne, get?_erase (ne_nil_of_get?_ne hfile), if_pos rfl]

theorem get?_moveFile_of_ne (hsource : other ≠ source.names current)
    (hgoal : other ≠ goal.names current) (h : tree.moveFile current source goal = .ok after) :
    after.get? other = tree.get? other := by
  obtain ⟨content, hfrom, -, -, hto, rfl⟩ := moveFile_eq_ok h
  have hfile := get?_ne_of_file?_eq_some hfrom
  rw [get?_put (ne_nil_of_get?_ne hto), if_neg hgoal, get?_erase (ne_nil_of_get?_ne hfile),
    if_neg hsource]

/-- What has been moved is read at its new place. -/
theorem read_moveFile {content : ByteArray} (hfile : tree.file? (source.names current) = some content)
    (h : tree.moveFile current source goal = .ok after) :
    after.read current goal = .ok content := by
  have hframe := frame_moveFile h
  obtain ⟨content', hfile', hclimbs, hgoal, hto, rfl⟩ := moveFile_eq_ok h
  obtain rfl : content = content' := by
    rw [hfile] at hfile'
    exact Option.some.inj hfile'
  exact read_eq_ok_iff.2
    ⟨hclimbs, _, hframe.locate hgoal, file?_put_self (ne_nil_of_get?_ne hto) content⟩

/-- Moving a file to a place that exists is refused only if no file is there to be moved, or if a
directory stands at its new place. -/
theorem get?_of_moveFile_eq_error {cause : FileError} {content : ByteArray}
    (hsourceClimbs : climbs source = false) (hgoalClimbs : climbs goal = false)
    (hsource : tree.locate current source = .ok (source.names current))
    (hfile : tree.file? (source.names current) = some content)
    (hgoal : tree.locate current goal = .ok (goal.names current))
    (h : tree.moveFile current source goal = .error cause) :
    tree.get? (goal.names current) = some .directory := by
  rw [file?_eq_some_iff] at hfile
  rw [moveFile, hsource, hgoal] at h
  simp only [denoted?_of_climbs_eq_false hsourceClimbs, denoted?_of_climbs_eq_false hgoalClimbs, hfile] at h
  split at h
  · next heq => cases heq
  · next heq => cases heq
  · next hto => exact hto
  · cases h

end Operations

end Weave.FileTree
