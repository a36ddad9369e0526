import Weave.Proofs.Error.Results
import Weave.Proofs.Path.Places
import Weave.Proofs.Path.Ways
import Weave.Proofs.Text.Bytes

/-!
# The way from a directory to a file

A path leads to a place, piece by piece from the root (`RawPath.destination`), and the names of places
are bytes. The way from a directory to a file is the shortest one between the two places as they are
shown (`RawPath.exists_shortest_relativeTo`). That is the shortest one between the places themselves if
their names are texts. If they are not, it can miss the file (`RawPath.relativeTo_misses`).

There is no way exactly if one of the two paths has no place (`RawPath.relativeTo_eq_error_iff`).
-/

namespace Weave

namespace RawPath

variable {current : Except FileError RawPath} {here file dir p : RawPath} {cause : FileError}
  {fault : RawPath × FileError} {piece : List UInt8} {names : List String}

/-! ## Places -/

/-- The place that one piece of a path leads to. -/
def stepTo (place : List (List UInt8)) (piece : List UInt8) : List (List UInt8) :=
  if piece = [] ∨ piece = [0x2e] then place
  else if piece = [0x2e, 0x2e] then place.dropLast
  else place ++ [piece]

/-- The place that a path leads to, piece by piece from the root, with the current directory `here` in
front of it unless it starts at the root anyway. -/
def destination (here p : RawPath) : List (List UInt8) :=
  (rooted here p).pieces.foldl stepTo []

/-- A piece leads where it is shown to lead. -/
theorem showStep_map_lossy (place : List (List UInt8)) (piece : List UInt8) :
    showStep (place.map Text.lossy) piece = (stepTo place piece).map Text.lossy := by
  unfold showStep stepTo
  split
  · rfl
  · split
    · exact List.map_dropLast.symm
    · rw [List.map_append, List.map_singleton]

/-- The names of a place are shown one by one. -/
theorem shownNames_rooted (here p : RawPath) :
    (rooted here p).shownNames = (destination here p).map Text.lossy := by
  have hfold (pieces : List (List UInt8)) (place : List (List UInt8)) :
      pieces.foldl showStep (place.map Text.lossy) = (pieces.foldl stepTo place).map Text.lossy := by
    induction pieces generalizing place with
    | nil => rfl
    | cons piece pieces ih => rw [List.foldl_cons, List.foldl_cons, showStep_map_lossy, ih]
  exact hfold (rooted here p).pieces []

/-- Broken characters do not make one of the two special names of a piece, and no slash either. -/
theorem isName_lossy (hempty : piece ≠ []) (hhere : piece ≠ [0x2e]) (hup : piece ≠ [0x2e, 0x2e])
    (hslash : 0x2f ∉ piece) : IsName (Text.lossy piece) where
  ne_empty h := hempty ((Text.lossy_eq_iff (by decide)).1 h)
  ne_here h := hhere ((Text.lossy_eq_iff (by decide)).1 h)
  ne_up h := hup ((Text.lossy_eq_iff (by decide)).1 h)
  slash_not_mem h := by
    rw [Text.lossy, String.toList_ofList] at h
    rcases Text.mem_lossyChars h with h | h
    · exact absurd h (by decide)
    · exact hslash (h List.mem_cons_self)

/-- Whatever piece of a path is followed, the places on the way have names. -/
theorem isName_of_mem_showStep (hnames : ∀ name ∈ names, IsName name) (hpiece : 0x2f ∉ piece) :
    ∀ name ∈ showStep names piece, IsName name := by
  unfold showStep
  split
  · exact hnames
  · next hplace =>
    obtain ⟨hempty, hhere⟩ := not_or.1 hplace
    split
    · intro name hname
      exact hnames name ((List.dropLast_sublist names).subset hname)
    · next hup =>
      intro name hname
      rcases List.mem_append.1 hname with hname | hname
      · exact hnames name hname
      · rw [List.mem_singleton.1 hname]
        exact isName_lossy hempty hhere hup hpiece

theorem isName_of_mem_shownNames (p : RawPath) : ∀ name ∈ p.shownNames, IsName name := by
  refine List.foldlRecOn (motive := fun names => ∀ name ∈ names, IsName name) _ _ ?_ ?_
  · exact List.forall_mem_nil _
  · -- a piece between slashes holds none, and that is all a step asks of it
    intro names hnames piece hpiece
    exact isName_of_mem_showStep hnames (Text.not_mem_of_mem_splitOn hpiece)

/-! ## Paths without a place -/

/-- Whether a path has no place, and why: it is empty, or it is relative and the current directory is
not known. -/
def Placeless (current : Except FileError RawPath) (p : RawPath) (cause : FileError) : Prop :=
  p.bytes = [] ∧ cause = .emptyPath ∨
    p.bytes ≠ [] ∧ p.isAbsolute = false ∧ current = .error cause

theorem absolute_eq_error_iff : p.absolute current = .error cause ↔ Placeless current p cause := by
  unfold absolute Placeless
  by_cases hempty : p.bytes = []
  · simpa [hempty] using eq_comm
  · by_cases habsolute : p.isAbsolute = true
    · simp [hempty, habsolute]
    · cases current <;> simp [hempty, habsolute, Except.map]

/-- Only a relative path needs the current directory. -/
theorem absolute_eq_ok (hp : p.bytes ≠ []) (hcurrent : current = .ok here ∨ p.isAbsolute = true) :
    p.absolute current = .ok (rooted here p) := by
  unfold absolute rooted
  rw [if_neg (mt List.isEmpty_iff.1 hp)]
  split
  · rfl
  · next hrelative =>
    rw [hcurrent.resolve_right hrelative]
    rfl

/-! ## Ways -/

theorem relativeTo_eq_ok (hfile : file.bytes ≠ []) (hdir : dir.bytes ≠ [])
    (hcurrent : current = .ok here ∨ file.isAbsolute = true ∧ dir.isAbsolute = true) :
    relativeTo current file dir = .ok ("/".intercalate
      (stepsBetween (rooted here dir).shownNames (rooted here file).shownNames)) := by
  rw [relativeTo, absolute_eq_ok hfile (hcurrent.imp_right And.left),
    absolute_eq_ok hdir (hcurrent.imp_right And.right)]
  rfl

/-- There is no way exactly if the file has no place, or it has one and the directory has none. -/
theorem relativeTo_eq_error_iff :
    relativeTo current file dir = .error fault ↔
      (∃ cause, Placeless current file cause ∧ fault = (file, cause)) ∨
        (∀ cause, ¬ Placeless current file cause) ∧
          ∃ cause, Placeless current dir cause ∧ fault = (dir, cause) := by
  simp only [← absolute_eq_error_iff]
  simp only [relativeTo, Except.bind_eq_error_iff, Except.mapError_eq_error_iff,
    Except.mapError_eq_ok_iff]
  cases file.absolute current with
  | error cause => simp
  | ok goal => simp [pure, Except.pure]

/-- The name of a file or directory that is a text. -/
def IsText (name : List UInt8) : Prop :=
  ∃ s, Text.utf8 s = name

/-- Names that are texts are what they are shown as. -/
theorem map_utf8_map_lossy {place : List (List UInt8)} (h : ∀ name ∈ place, IsText name) :
    (place.map Text.lossy).map Text.utf8 = place := by
  rw [List.map_map]
  refine (List.map_congr_left fun name hname => ?_).trans (List.map_id place)
  obtain ⟨s, rfl⟩ := h name hname
  rw [Function.comp_apply, Text.lossy_utf8, id_eq]

/-- From a directory to a file there is a way, if each of the two paths denotes something and the
current directory is known where it is needed. The way climbs first and goes only down then. It is the
shortest one between the two places as they are shown, and between the places themselves if all their
names are texts. -/
theorem exists_shortest_relativeTo (hfile : file.bytes ≠ []) (hdir : dir.bytes ≠ [])
    (hcurrent : current = .ok here ∨ file.isAbsolute = true ∧ dir.isAbsolute = true) :
    ∃ way, relativeTo current file dir = .ok way ∧
      (∃ n names, stepsOf way = List.replicate n ".." ++ names ∧ ∀ name ∈ names, IsName name) ∧
      Shortest id ((destination here dir).map Text.lossy) ((destination here file).map Text.lossy)
        (stepsOf way) ∧
      ((∀ name ∈ destination here dir, IsText name) → (∀ name ∈ destination here file, IsText name) →
        Shortest Text.utf8 (destination here dir) (destination here file) (stepsOf way)) := by
  have hgoal := isName_of_mem_shownNames (rooted here file)
  have hsteps := stepsOf_intercalate_stepsBetween hgoal (rooted here dir).shownNames
  have hshortest := shortest_stepsBetween hgoal (rooted here dir).shownNames
  refine ⟨_, relativeTo_eq_ok hfile hdir hcurrent, ?_, ?_, ?_⟩
  · rw [hsteps]
    refine ⟨_, _, rfl, ?_⟩
    intro name hname
    exact hgoal name (List.mem_of_mem_drop hname)
  · rw [hsteps, ← shownNames_rooted, ← shownNames_rooted]
    exact hshortest
  · intro hdirText hfileText
    have hmap := hshortest.map Text.utf8_injective
    rw [shownNames_rooted, shownNames_rooted, map_utf8_map_lossy hdirText,
      map_utf8_map_lossy hfileText, ← shownNames_rooted, ← shownNames_rooted] at hmap
    rw [hsteps]
    exact hmap

/-- Between two neighbours in a project, of which one is given from the root and the other is not. -/
theorem exists_shortest_relativeTo_sibling :
    ∃ way, relativeTo (.ok (Path.ofNames ["repo"]).raw) (Path.mk "./examples//example.jl").raw
        (Path.mk "/repo/docs/../src/generated/").raw = .ok way ∧
      Shortest Text.utf8
        (destination (Path.ofNames ["repo"]).raw (Path.mk "/repo/docs/../src/generated/").raw)
        (destination (Path.ofNames ["repo"]).raw (Path.mk "./examples//example.jl").raw)
        (stepsOf way) := by
  have htext {names : List String} {place : List (List UInt8)} (h : place = names.map Text.utf8) :
      ∀ name ∈ place, IsText name := by
    intro name hname
    rw [h] at hname
    obtain ⟨s, -, hs⟩ := List.mem_map.1 hname
    exact ⟨s, hs⟩
  have hdir : destination (Path.ofNames ["repo"]).raw (Path.mk "/repo/docs/../src/generated/").raw
      = ["repo", "src", "generated"].map Text.utf8 := rfl
  have hfile : destination (Path.ofNames ["repo"]).raw (Path.mk "./examples//example.jl").raw
      = ["repo", "examples", "example.jl"].map Text.utf8 := rfl
  obtain ⟨way, hway, -, -, hshortest⟩ := @exists_shortest_relativeTo
    (.ok (Path.ofNames ["repo"]).raw) (Path.ofNames ["repo"]).raw
    (Path.mk "./examples//example.jl").raw (Path.mk "/repo/docs/../src/generated/").raw
    (by decide) (by decide) (Or.inl rfl)
  exact ⟨way, hway, hshortest (htext hdir) (htext hfile)⟩

/-- A name that is no text is shown with a sign that is not in it, so that the way to it ends somewhere
else. And without a current directory there is no way at all from a relative path. -/
theorem relativeTo_misses :
    (∃ way, relativeTo (.ok ⟨[0x2f]⟩) ⟨Text.utf8 "/a/" ++ 0xff :: Text.utf8 ".jl"⟩ ⟨Text.utf8 "/a"⟩
        = .ok way ∧
      (stepsOf way).foldl (follow Text.utf8) (destination ⟨[0x2f]⟩ ⟨Text.utf8 "/a"⟩)
        ≠ destination ⟨[0x2f]⟩ ⟨Text.utf8 "/a/" ++ 0xff :: Text.utf8 ".jl"⟩) ∧
    ∀ way, relativeTo (.error .notFound) ⟨Text.utf8 "a/b.jl"⟩ ⟨Text.utf8 "a"⟩ ≠ .ok way := by
  refine ⟨⟨"\ufffd.jl", ?_, ?_⟩, ?_⟩
  · decide +kernel
  · decide +kernel
  · intro way h
    cases h

example : relativeTo (.ok (Path.ofNames ["repo"]).raw) (Path.mk "./examples//example.jl").raw
    (Path.mk "/repo/docs/../src/generated/").raw = .ok "../../examples/example.jl" := by
  rfl

end RawPath

/-! ## Paths that are texts -/

namespace Path

open RawPath (IsName Shortest stepsOf)

variable {current : List String} {known : Except FileError (List String)} {path file dir : Path}
  {cause : FileError} {fault : Fault} {names : List String}

theorem bytes_raw_eq_nil_iff : path.raw.bytes = [] ↔ path.text = "" :=
  ⟨fun h => Text.utf8_injective h, fun h => congrArg Text.utf8 h⟩

/-- The first byte is a slash exactly if the first character is one. -/
theorem isAbsolute_raw (path : Path) : path.raw.isAbsolute = path.isAbsolute := by
  unfold RawPath.isAbsolute isAbsolute raw Text.utf8
  cases path.text.toList with
  | nil => rfl
  | cons c cs =>
    obtain ⟨lead, tail, hbytes⟩ := List.exists_cons_of_ne_nil (Text.utf8EncodeChar_ne_nil c)
    have hlead : lead = 0x2f ↔ c = '/' := by
      constructor
      · intro hlead
        by_contra hc
        apply Text.slash_not_mem_utf8EncodeChar hc
        rw [hbytes, hlead]
        exact List.mem_cons_self
      · rintro rfl
        exact (List.head_eq_of_cons_eq hbytes).symm
    rw [List.flatMap_cons, hbytes, Bool.eq_iff_iff]
    simpa using hlead

/-- The bytes of a path are cut at slashes where the text is. -/
theorem pieces_raw (path : Path) :
    path.raw.pieces = (path.pieces.map String.ofList).map Text.utf8 := by
  rw [RawPath.pieces, pieces, raw, Text.utf8, Text.splitOn_flatMap_utf8EncodeChar, List.map_map]
  refine List.map_congr_left fun piece _ => ?_
  show _ = Text.utf8 (String.ofList piece)
  rw [Text.utf8, String.toList_ofList]

/-- Bytes lead where their text does. -/
theorem stepTo_utf8 (place : List String) (piece : String) :
    RawPath.stepTo (place.map Text.utf8) (Text.utf8 piece)
      = (stepTo place piece).map Text.utf8 := by
  have hpiece (s : String) : Text.utf8 piece = Text.utf8 s ↔ piece = s :=
    Text.utf8_injective.eq_iff
  have hempty : Text.utf8 piece = [] ↔ piece = "" := hpiece ""
  have hhere : Text.utf8 piece = [0x2e] ↔ piece = "." := hpiece "."
  have hup : Text.utf8 piece = [0x2e, 0x2e] ↔ piece = ".." := hpiece ".."
  unfold RawPath.stepTo stepTo
  simp only [hempty, hhere, hup]
  split
  · rfl
  · split
    · exact List.map_dropLast.symm
    · rw [List.map_append, List.map_singleton]

theorem foldl_stepTo_utf8 (pieces place : List String) :
    (pieces.map Text.utf8).foldl RawPath.stepTo (place.map Text.utf8)
      = (pieces.foldl stepTo place).map Text.utf8 := by
  induction pieces generalizing place with
  | nil => rfl
  | cons piece pieces ih => rw [List.map_cons, List.foldl_cons, List.foldl_cons, stepTo_utf8, ih]

/-- Names are pieces that lead down. -/
theorem foldl_stepTo_of_isName (h : ∀ name ∈ names, IsName name) (place : List String) :
    names.foldl stepTo place = place ++ names := by
  induction names generalizing place with
  | nil => exact (List.append_nil place).symm
  | cons name names ih =>
    rw [List.forall_mem_cons] at h
    have hname : stepTo place name = place ++ [name] := by
      rw [stepTo, if_neg (not_or.2 ⟨h.1.ne_empty, h.1.ne_here⟩), if_neg h.1.ne_up]
    rw [List.foldl_cons, hname, ih h.2, List.append_assoc, List.singleton_append]

/-- The path of a place leads there. -/
theorem foldl_stepTo_pieces_ofNames (h : ∀ name ∈ names, IsName name) :
    ((ofNames names).pieces.map String.ofList).foldl stepTo [] = names := by
  have hpieces : (ofNames names).pieces = [] :: ("/".intercalate names).toList.splitOn '/' := by
    rw [pieces, ofNames, String.toList_append]
    exact List.splitOn_append_cons_self_of_not_mem List.not_mem_nil _
  rw [hpieces, List.map_cons, List.foldl_cons]
  cases names with
  | nil => rfl
  | cons name names =>
    have hslash : ∀ t ∈ name :: names, '/' ∉ t.toList := fun t ht => (h t ht).slash_not_mem
    rw [Text.map_ofList_splitOn_intercalate rfl (List.cons_ne_nil _ _) hslash]
    exact foldl_stepTo_of_isName h []

/-- The place that the bytes of a path lead to is the one that its text leads to. -/
theorem destination_raw (hcurrent : ∀ name ∈ current, IsName name) (path : Path) :
    RawPath.destination (ofNames current).raw path.raw = (path.names current).map Text.utf8 := by
  rw [RawPath.destination, RawPath.rooted, isAbsolute_raw, names_eq_foldl, start]
  split
  · rw [pieces_raw]
    exact foldl_stepTo_utf8 _ []
  · have hpieces : RawPath.pieces ⟨(ofNames current).raw.bytes ++ 0x2f :: path.raw.bytes⟩
        = (ofNames current).raw.pieces ++ path.raw.pieces :=
      List.splitOn_append_cons_self _ _
    have hstart := foldl_stepTo_utf8 ((ofNames current).pieces.map String.ofList) []
    rw [foldl_stepTo_pieces_ofNames hcurrent] at hstart
    rw [hpieces, List.foldl_append, pieces_raw, pieces_raw]
    exact hstart ▸ foldl_stepTo_utf8 _ current

/-- Between paths that are texts the way is the shortest one between the places that they denote. -/
theorem shortest_relativeTo (hcurrent : ∀ name ∈ current, IsName name) (hfile : file.text ≠ "")
    (hdir : dir.text ≠ "") :
    ∃ way, relativeTo (.ok current) file dir = .ok way ∧
      Shortest id (dir.names current) (file.names current) (stepsOf way) := by
  obtain ⟨way, hway, -, hshortest, -⟩ := @RawPath.exists_shortest_relativeTo
    (.ok (ofNames current).raw) (ofNames current).raw file.raw dir.raw
    (mt bytes_raw_eq_nil_iff.1 hfile) (mt bytes_raw_eq_nil_iff.1 hdir) (Or.inl rfl)
  have hlossy (names : List String) : (names.map Text.utf8).map Text.lossy = names := by
    rw [List.map_map]
    exact (List.map_congr_left fun name _ => Text.lossy_utf8 name).trans (List.map_id names)
  rw [destination_raw hcurrent, destination_raw hcurrent, hlossy, hlossy] at hshortest
  refine ⟨way, ?_, hshortest⟩
  rw [relativeTo, Except.map, hway]
  rfl

/-- Whether a path has no place, and why: it is empty, or it is relative and the current directory is
not known. -/
def Placeless (known : Except FileError (List String)) (path : Path) (cause : FileError) : Prop :=
  path.text = "" ∧ cause = .emptyPath ∨
    path.text ≠ "" ∧ path.isAbsolute = false ∧ known = .error cause

/-- The way from a directory to a file that is not there: one of the two has no place. The file is looked
at first. -/
inductive NoWay (known : Except FileError (List String)) (file dir : Path) : Fault → Prop
  | file {cause : FileError} (hfile : Placeless known file cause) :
      NoWay known file dir (.file file cause)
  | dir {cause : FileError} (hfile : ∀ cause, ¬ Placeless known file cause)
      (hdir : Placeless known dir cause) : NoWay known file dir (.file dir cause)

theorem placeless_raw : RawPath.Placeless (known.map fun names => (ofNames names).raw) path.raw cause
    ↔ Placeless known path cause := by
  unfold RawPath.Placeless Placeless
  rw [bytes_raw_eq_nil_iff, isAbsolute_raw, ne_eq, bytes_raw_eq_nil_iff]
  cases known <;> simp [Except.map]

/-- There is no way exactly if the file has no place, or it has one and the directory has none. The
error names the path that has none. -/
theorem relativeTo_eq_error_iff :
    relativeTo known file dir = .error fault ↔ NoWay known file dir fault := by
  have hshown (path : Path) : Path.mk (Text.lossy path.raw.bytes) = path :=
    congrArg Path.mk (Text.lossy_utf8 path.text)
  rw [relativeTo, Except.mapError_eq_error_iff]
  simp only [RawPath.relativeTo_eq_error_iff, placeless_raw]
  constructor
  · rintro ⟨failed, ⟨cause, hcause, rfl⟩ | ⟨hfile, cause, hcause, rfl⟩, rfl⟩
    · rw [hshown]
      exact .file hcause
    · rw [hshown]
      exact .dir hfile hcause
  · intro h
    cases h with
    | file hcause => exact ⟨_, Or.inl ⟨_, hcause, rfl⟩, by rw [hshown]⟩
    | dir hfile hcause => exact ⟨_, Or.inr ⟨hfile, _, hcause, rfl⟩, by rw [hshown]⟩

end Path

end Weave
