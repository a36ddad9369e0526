import Weave.Proofs.Generation.Saving

/-!
# A document takes the place of a file

Saving goes through several file trees: one for each directory that is made, one in which the
temporary file is written and one in which it has been moved. Up to the last of them nothing but
directories and the temporary file is new (`FileTree.Grown`), so that the file at the place of the
document is the one that was there before, and the last one has the complete document there
(`save_replaces`).
-/

namespace Weave

/-! ## Trees with more directories -/

namespace FileTree

/-- Nothing is different but that directories stand at some of these places, where nothing stood. -/
def Grown (places : List (List String)) (before after : FileTree) : Prop :=
  ∀ place, after.get? place = before.get? place ∨
    place ∈ places ∧ before.get? place = none ∧ after.get? place = some .directory

namespace Grown

variable {places : List (List String)} {before middle after : FileTree} {place : List String}

theorem refl (places : List (List String)) (tree : FileTree) : Grown places tree tree :=
  fun _ => Or.inl rfl

theorem trans (h : Grown places before middle) (h' : Grown places middle after) :
    Grown places before after := by
  intro place
  obtain heq | ⟨hplace, hnone, hdirectory⟩ := h place
  · rw [← heq]
    exact h' place
  · obtain heq' | ⟨-, hnone', -⟩ := h' place
    · exact Or.inr ⟨hplace, hnone, heq'.trans hdirectory⟩
    · rw [hdirectory] at hnone'
      cases hnone'

/-- Making directories changes no file. -/
theorem frame (h : Grown places before after) : Frame [] before after := by
  constructor
  · intro place hplace
    obtain heq | ⟨-, hnone, -⟩ := h place
    · exact heq.trans hplace
    · rw [hplace] at hnone
      cases hnone
  · intro place _
    obtain heq | ⟨-, hnone, hdirectory⟩ := h place
    · rw [file?, heq, file?]
    · rw [file?, hdirectory, file?, hnone]

end Grown

/-- A directory that is made stands at the place of its path. -/
theorem grown_makeDirectory {places : List (List String)} {tree after : FileTree}
    {current : List String} {path : Path} (hplace : path.names current ∈ places)
    (h : tree.makeDirectory current path = .ok after) : Grown places tree after := by
  obtain ⟨hnone, rfl⟩ := makeDirectory_eq_ok h
  have hne : path.names current ≠ [] := by
    intro hnil
    rw [hnil, get?_nil] at hnone
    cases hnone
  intro other
  rw [get?_put hne]
  split
  · next hother =>
    rw [hother]
    exact Or.inr ⟨hplace, hnone, rfl⟩
  · exact Or.inl rfl

end FileTree

/-! ## Workplaces that pass through trees -/

namespace Workplace

/-- The workplace after these trees have been left, one after the other. -/
def through (place : Workplace) (trees : List FileTree) : Workplace :=
  trees.foldl changed place

/-- Trees that are left one after the other can be told in two parts. -/
theorem through_append (place : Workplace) (trees more : List FileTree) :
    place.through (trees ++ more) = (place.through trees).through more :=
  List.foldl_append

theorem current_through (place : Workplace) (trees : List FileTree) :
    (place.through trees).current = place.current := by
  induction trees generalizing place with
  | nil => rfl
  | cons tree trees ih => exact ih (place.changed tree)

/-- The tree that is left is the last one. -/
theorem tree_through (place : Workplace) (trees : List FileTree) :
    (place.through trees).tree = place.tree ∨ (place.through trees).tree ∈ trees := by
  induction trees generalizing place with
  | nil => exact Or.inl rfl
  | cons tree trees ih =>
    obtain heq | hmem := ih (place.changed tree)
    · exact Or.inr (List.mem_cons.2 (Or.inl heq))
    · exact Or.inr (List.mem_cons_of_mem _ hmem)

/-- Directories have been made at the places of some of these paths, one after the other, and
nothing else has happened. -/
def Builds (paths : List Path) (before after : Workplace) : Prop :=
  ∃ trees, after = before.through trees ∧
    ∀ tree ∈ trees, FileTree.Grown (paths.map (·.names before.current)) before.tree tree

variable {paths : List Path} {before after : Workplace}

theorem Builds.current (h : Builds paths before after) : after.current = before.current := by
  obtain ⟨trees, rfl, -⟩ := h
  exact current_through before trees

/-- After the last directory the tree has grown by directories only. -/
theorem Builds.grown (h : Builds paths before after) :
    FileTree.Grown (paths.map (·.names before.current)) before.tree after.tree := by
  obtain ⟨trees, rfl, hgrown⟩ := h
  obtain heq | hmem := tree_through before trees
  · rw [heq]
    exact .refl _ _
  · exact hgrown _ hmem

instance (paths : List Path) : IsPreorder Workplace (Builds paths) where
  refl place := ⟨[], rfl, List.forall_mem_nil _⟩
  trans := by
    intro before middle after h h'
    have hgrown := h.grown
    have hcurrent := h.current
    obtain ⟨trees, rfl, htrees⟩ := h
    obtain ⟨more, rfl, hmore⟩ := h'
    rw [hcurrent] at hmore
    exact ⟨trees ++ more, (through_append before trees more).symm, List.forall_mem_append.2
      ⟨htrees, fun tree htree => hgrown.trans (hmore tree htree)⟩⟩

theorem builds_makeDirectory {path : Path} (hpath : path ∈ paths) :
    Leads (Builds paths) (Files.makeDirectory path : StateM Workplace _) := by
  refine leads_change fun place tree htree => ⟨[tree], rfl, List.forall_mem_singleton.2 ?_⟩
  have hplace : path.names place.current ∈ paths.map (·.names place.current) :=
    List.mem_map_of_mem hpath
  exact FileTree.grown_makeDirectory hplace htree

/-- Making a directory with those above it makes none but these. -/
theorem builds_makeDirectories (dir : Path) :
    Leads (Builds (dir :: dir.parents)) (Files.makeDirectories dir : StateM Workplace _) :=
  leads_makeChain fun _ hpath => builds_makeDirectory hpath

end Workplace

/-! ## The place of a document -/

namespace Document

open Workplace

variable {document : Document} {dir : Path} {name : String} {target : Target}
  {before after : Workplace} {content : ByteArray}

/-- A name of three characters or more is no special one, and has its place in the directory. -/
theorem names_join_of_length {next : String} (hslash : '/' ∉ next.toList) (h : 3 ≤ next.length)
    (current : List String) : (dir.join next).names current = dir.names current ++ [next] := by
  obtain ⟨hhere, hup⟩ := FileTree.not_special_of_length h
  exact Path.names_join hslash (not_or.1 hhere).1 (not_or.1 hhere).2 hup current

/-- The temporary file has a place of its own. -/
theorem names_artifactPath_ne (hname : '/' ∉ name.toList) (current : List String) :
    (artifactPath dir name target).names current
      ≠ (temporaryPath dir name target).names current := by
  have htemporary := slash_not_mem_temporaryName target hname
  have hfile : '/' ∉ (fileName name target).toList :=
    fun hmem => htemporary (fileName_subset_temporaryName hmem)
  have hlength := length_fileName name target
  have hlength' := length_temporaryName name target
  rw [artifactPath, temporaryPath, names_join_of_length hfile hlength,
    names_join_of_length htemporary (by omega)]
  -- the names of the two files have different lengths
  intro heq
  have hlast := List.singleton_inj.1 (List.append_cancel_left heq)
  rw [hlast] at hlength'
  omega

/-- What a file of a document has to hold: the text of the notebook or, for a text, this text with
one newline in the place of all those that it ends with. -/
def IsComplete (document : Document) (content : ByteArray) : Prop :=
  match document with
  | .notebook book => content = book.write.toUTF8
  | .text body => ∃ (front : List Char) (n : ℕ), body.toList = front ++ List.replicate n '\n' ∧
      front.getLast? ≠ some '\n' ∧ content = (String.ofList (front ++ ['\n'])).toUTF8

/-- What is written for a document is complete. -/
theorem isComplete_fileText (document : Document) :
    document.IsComplete document.fileText.toUTF8 := by
  cases document with
  | notebook book => rfl
  | text body =>
    obtain ⟨n, hn⟩ := Text.exists_eq_dropTrailing_append_replicate '\n' body.toList
    have hlast : (Text.dropTrailing (· == '\n') body.toList).getLast? ≠ some '\n' :=
      fun h => Text.not_of_mem_getLast?_dropTrailing h (beq_self_eq_true '\n')
    exact ⟨_, n, hn, hlast, rfl⟩

/-! ## Saving -/

/-- While nothing but directories and the temporary file is new, the file at the place of the
document is the one that was there before. -/
theorem file_of_frame (hname : '/' ∉ name.toList) {tree : FileTree}
    (h : FileTree.Frame [(temporaryPath dir name target).names before.current] before.tree tree) :
    tree.file? ((artifactPath dir name target).names before.current)
        = before.tree.file? ((artifactPath dir name target).names before.current) ∧
      ∀ old, before.tree.read before.current (artifactPath dir name target) = .ok old →
        tree.read before.current (artifactPath dir name target) = .ok old := by
  have hplace : (artifactPath dir name target).names before.current
      ∉ [(temporaryPath dir name target).names before.current] :=
    List.mem_singleton.not.2 (names_artifactPath_ne hname before.current)
  exact ⟨h.file _ hplace, fun old hold => h.read hold hplace⟩

/-- A run of `save` that fails has only passed through trees with new directories and the temporary
file. One that succeeds goes on from there to a last tree, to which the temporary file is moved. -/
theorem save_through {result : Except Fault Path} (hname : '/' ∉ name.toList)
    (h : perform (document.save dir name target) before = (result, after)) :
    ∃ trees : List FileTree,
      (∀ tree ∈ trees, FileTree.Frame [(temporaryPath dir name target).names before.current]
        before.tree tree) ∧
      ((∃ fault, result = .error fault ∧ after = before.through trees) ∨
        ∃ moved : FileTree, result = .ok (artifactPath dir name target) ∧
          after = before.through (trees ++ [moved]) ∧
          moved.read before.current (artifactPath dir name target)
            = .ok document.fileText.toUTF8 ∧
          moved.get? ((temporaryPath dir name target).names before.current) = none ∧
          ∀ other, other ≠ (artifactPath dir name target).names before.current →
            other ≠ (temporaryPath dir name target).names before.current →
            moved.get? other = before.tree.get? other ∨
              other ∈ (dir :: dir.parents).map (·.names before.current) ∧
                before.tree.get? other = none ∧ moved.get? other = some .directory) := by
  obtain ⟨middle, hbuilds, hend⟩ := perform_save (builds_makeDirectories dir) h
  have hgrown := hbuilds.grown
  have hcurrent := hbuilds.current
  obtain ⟨trees, rfl, htrees⟩ := hbuilds
  have hframes : ∀ tree ∈ trees, FileTree.Frame
      [(temporaryPath dir name target).names before.current] before.tree tree :=
    fun tree htree => (htrees tree htree).frame.mono (List.nil_subset _)
  rw [hcurrent] at hend
  obtain ⟨cause, rfl, rfl⟩ | ⟨cause, -, rfl, rfl⟩ | ⟨written, hwrite, hend⟩ := hend
  · exact ⟨trees, hframes, Or.inl ⟨_, rfl, rfl⟩⟩
  · exact ⟨trees, hframes, Or.inl ⟨_, rfl, rfl⟩⟩
  · -- before the move nothing has changed at the place of the document
    have hwritten : ∀ tree ∈ trees ++ [written], FileTree.Frame
        [(temporaryPath dir name target).names before.current] before.tree tree :=
      List.forall_mem_append.2 ⟨hframes, List.forall_mem_singleton.2
        (hgrown.frame.trans (FileTree.frame_write hwrite))⟩
    have hthrough : (before.through trees).changed written = before.through (trees ++ [written]) :=
      (through_append before trees [written]).symm
    refine ⟨trees ++ [written], hwritten, ?_⟩
    obtain ⟨cause, -, rfl, rfl⟩ | ⟨moved, hmove, rfl, rfl⟩ := hend
    · exact Or.inl ⟨_, rfl, hthrough⟩
    · have hne : (temporaryPath dir name target).names before.current
          ≠ (artifactPath dir name target).names before.current :=
        (names_artifactPath_ne hname before.current).symm
      refine Or.inr ⟨moved, rfl, ?_, FileTree.read_moveFile (FileTree.file?_write hwrite) hmove,
        FileTree.get?_moveFile_source hne hmove, fun other hplace htemporary => ?_⟩
      · rw [hthrough]
        exact (through_append before (trees ++ [written]) [moved]).symm
      · rw [FileTree.get?_moveFile_of_ne htemporary hplace hmove,
          FileTree.get?_write_of_ne hwrite htemporary]
        exact hgrown other

/-- Saving a document replaces the file at its place in one step. -/
theorem save_replaces {result : Except Fault Path} (hname : '/' ∉ name.toList)
    (h : perform (document.save dir name target) before = (result, after)) :
    let path := artifactPath dir name target
    let place := path.names before.current
    let temporary := (temporaryPath dir name target).names before.current
    ∃ (content : ByteArray) (trees : List FileTree),
      document.IsComplete content ∧ after = before.through trees ∧
      (∀ tree ∈ trees,
        (tree.file? place = before.tree.file? place ∨ tree.file? place = some content) ∧
        ∀ old, before.tree.read before.current path = .ok old →
          tree.read before.current path = .ok old ∨ tree.read before.current path = .ok content) ∧
      (∀ fault, result = .error fault →
        after.tree.file? place = before.tree.file? place ∧
        ∀ old, before.tree.read before.current path = .ok old →
          after.tree.read before.current path = .ok old) ∧
      ∀ saved, result = .ok saved →
        saved = path ∧ after.tree.read before.current path = .ok content ∧
        after.tree.file? place = some content ∧ after.tree.get? temporary = none ∧
        ∀ other, other ≠ place → other ≠ temporary →
          after.tree.get? other = before.tree.get? other ∨
            before.tree.get? other = none ∧ after.tree.get? other = some .directory ∧
              ∃ above ∈ dir :: dir.parents, other = above.names before.current := by
  intro path place temporary
  obtain ⟨trees, hframes, ⟨fault, rfl, rfl⟩ | ⟨moved, rfl, rfl, hread, hgone, hothers⟩⟩ :=
    save_through hname h
  · have hafter : FileTree.Frame [temporary] before.tree (before.through trees).tree := by
      obtain heq | hmem := tree_through before trees
      · rw [heq]
        exact .refl _ _
      · exact hframes _ hmem
    refine ⟨_, trees, document.isComplete_fileText, rfl, fun tree htree => ?_,
      fun _ _ => file_of_frame hname hafter, fun saved hsaved => by cases hsaved⟩
    obtain ⟨hfile, hold⟩ := file_of_frame hname (hframes tree htree)
    exact ⟨Or.inl hfile, fun old hread => Or.inl (hold old hread)⟩
  · have hmoved : moved.file? place = some document.fileText.toUTF8 := by
      obtain ⟨-, found, hlocate, hfile⟩ := FileTree.read_eq_ok_iff.1 hread
      rwa [FileTree.eq_names_of_locate hlocate] at hfile
    have hlast : (before.through (trees ++ [moved])).tree = moved := by
      rw [through_append]
      rfl
    refine ⟨_, trees ++ [moved], document.isComplete_fileText, rfl, ?_,
      fun _ hfault => (by cases hfault), fun saved hsaved => ?_⟩
    · refine List.forall_mem_append.2 ⟨fun tree htree => ?_, List.forall_mem_singleton.2
        ⟨Or.inr hmoved, fun _ _ => Or.inr hread⟩⟩
      obtain ⟨hfile, hold⟩ := file_of_frame hname (hframes tree htree)
      exact ⟨Or.inl hfile, fun old hread => Or.inl (hold old hread)⟩
    · cases hsaved
      rw [hlast]
      refine ⟨rfl, hread, hmoved, hgone, fun other hplace htemporary => ?_⟩
      obtain heq | ⟨hmem, hnone, hdirectory⟩ := hothers other hplace htemporary
      · exact Or.inl heq
      · obtain ⟨above, habove, rfl⟩ := List.mem_map.1 hmem
        exact Or.inr ⟨hnone, hdirectory, above, habove, rfl⟩

/-- A page replaces an older one in a directory whose path leads through one that is missing. -/
theorem save_replaces_page :
    let before : Workplace := { tree := ⟨[(["docs", "a.md"], .file "old\n".toUTF8),
      (["docs"], .directory)]⟩ }
    let after := (perform ((Document.text "x\n\n").save ⟨"docs/new/.."⟩ "a" .markdown) before).2
    '/' ∉ "a".toList ∧
      perform ((Document.text "x\n\n").save ⟨"docs/new/.."⟩ "a" .markdown) before
        = (.ok ⟨"docs/new/../a.md"⟩, after) ∧
      (∃ trees, after = before.through trees ∧
        ∀ tree ∈ trees, tree.file? ["docs", "a.md"] = some "old\n".toUTF8 ∨
          tree.file? ["docs", "a.md"] = some "x\n".toUTF8) ∧
      after.tree.read [] ⟨"docs/new/../a.md"⟩ = .ok "x\n".toUTF8 ∧
      after.tree.get? ["docs", ".a.md.tmp"] = none := by
  intro before after
  have hname : '/' ∉ "a".toList := by decide
  have hrun : perform ((Document.text "x\n\n").save ⟨"docs/new/.."⟩ "a" .markdown) before
      = (.ok ⟨"docs/new/../a.md"⟩, after) := Prod.ext rfl rfl
  have hread : after.tree.read [] ⟨"docs/new/../a.md"⟩ = .ok "x\n".toUTF8 := rfl
  obtain ⟨content, trees, -, hafter, htrees, -, hok⟩ := save_replaces hname hrun
  obtain ⟨-, hsaved, -, hgone, -⟩ := hok _ rfl
  obtain rfl : "x\n".toUTF8 = content := Except.ok.inj (hread.symm.trans hsaved)
  exact ⟨hname, hrun, ⟨trees, hafter, fun tree htree => (htrees tree htree).1⟩, hsaved, hgone⟩

end Document

end Weave
