import Mathlib.Tactic.ByContra
import Mathlib.Tactic.Push
import Weave.Chunk

/-!
# What lines read as

A directive is the token of a target, alone or before a space and the rest of the line
(`Target.Directs`, `directive?_eq_some_iff`). What a target sees of a directive for it is what the
rest of the line reads as by itself (`keep?_read`), and reading a whole text into chunks
is selecting lines one by one and grouping them, unless some line is a directive around a directive
(`parse_eq_ok_iff`).
-/

namespace Weave

/-! ## Directives -/

/-- A line is a directive for a target: its token alone, or before one space and the rest. -/
def Target.Directs (target : Target) (line rest : String) : Prop :=
  line = target.token ∧ rest = "" ∨ line = target.token ++ " " ++ rest

/-- A directive around a directive. -/
def Line.Nested (line : String) : Prop :=
  ∃ (outer inner : Target) (rest inside : String),
    outer.Directs line rest ∧ inner.Directs rest inside

variable {target : Target} {line rest : List Char}

/-- What is behind the token of a target is found exactly if the line is a directive for it. -/
theorem Target.directiveRest?_eq_some_iff :
    target.directiveRest? line = some rest ↔
      target.Directs (String.ofList line) (String.ofList rest) := by
  have halone : line = target.token.toList ++ [] ↔ String.ofList line = target.token := by
    rw [List.append_nil, ← String.toList_inj, String.toList_ofList]
  have hspace : ∀ rest, line = target.token.toList ++ ' ' :: rest ↔
      String.ofList line = target.token ++ " " ++ String.ofList rest := by
    intro rest
    rw [← String.toList_inj]
    simp
  have hempty : rest = [] ↔ String.ofList rest = "" := by
    rw [← String.toList_inj, String.toList_ofList, String.toList_empty]
  rw [Target.Directs, ← halone, ← hspace, ← hempty, ← Text.afterStart?_eq_some_iff,
    ← Text.afterStart?_eq_some_iff, Target.directiveRest?]
  split
  · next h => simp [h, eq_comm]
  · next h => simp [h]
  · next h₁ h₂ =>
    -- the token is not there, or something other than a space follows it
    constructor
    · intro h
      cases h
    · rintro (⟨h, -⟩ | h)
      · exact absurd h h₁
      · exact absurd h (h₂ rest)

/-- All tokens have three characters, so that a directive begins with the token of its target. -/
theorem Target.Directs.take_toList {line rest : String} (h : target.Directs line rest) :
    line.toList.take 3 = target.token.toList := by
  rcases h with ⟨rfl, -⟩ | rfl
  · cases target <;> rfl
  · rw [String.toList_append, String.toList_append]
    cases target <;> rfl

/-- A line is a directive for one target at most, and around one rest. -/
theorem Target.Directs.unique {other : Target} {line rest rest' : String}
    (h : target.Directs line rest) (h' : other.Directs line rest') :
    target = other ∧ rest = rest' := by
  have htokens : target.token.toList = other.token.toList := by
    rw [← h.take_toList, ← h'.take_toList]
  have htargets : target = other := by
    cases target <;> cases other <;> first | rfl | exact absurd htokens (by decide)
  subst htargets
  refine ⟨rfl, String.toList_inj.1 ?_⟩
  rw [← String.ofList_toList (s := line), ← String.ofList_toList (s := rest),
    ← Target.directiveRest?_eq_some_iff] at h
  rw [← String.ofList_toList (s := line), ← String.ofList_toList (s := rest'),
    ← Target.directiveRest?_eq_some_iff, h, Option.some_inj] at h'
  exact h'

/-- The rest of a directive ends the line. -/
theorem Target.Directs.isSuffix {line rest : String} (h : target.Directs line rest) :
    rest.toList <:+ line.toList := by
  rcases h with ⟨-, rfl⟩ | rfl
  · exact List.nil_suffix
  · rw [String.toList_append]
    exact List.suffix_append _ _

/-- The text of a line that is no directive ends the line. -/
theorem PlainLine.isSuffix_of_read {kind : Kind} {content : String}
    (h : PlainLine.read line = .text kind content) : content.toList <:+ line := by
  unfold PlainLine.read at h
  split at h
  · cases h
  · cases h
    rw [String.toList_ofList]
    exact ⟨['#', '\'', ' '], rfl⟩
  · cases h
    rw [String.toList_ofList]
    exact ⟨['#', '\''], rfl⟩
  · cases h
    simp

/-- A line of code is its own text. -/
theorem PlainLine.eq_of_read_code {content : String}
    (h : PlainLine.read line = .text .code content) : content.toList = line := by
  unfold PlainLine.read at h
  split at h
  · cases h
  · cases h
  · cases h
  · cases h
    rw [String.toList_ofList]

namespace Line

/-- The target and the rest of a directive are found exactly if the line is one. -/
theorem directive?_eq_some_iff :
    directive? line = some (target, rest) ↔
      target.Directs (String.ofList line) (String.ofList rest) := by
  have hsound : ∀ {own : Target} {rest : List Char}, directive? line = some (own, rest) →
      own.Directs (String.ofList line) (String.ofList rest) := by
    intro own rest h
    obtain ⟨own', -, hown'⟩ := List.exists_of_findSome?_eq_some h
    obtain ⟨rest', hrest', heq⟩ := Option.map_eq_some_iff.1 hown'
    obtain ⟨rfl, rfl⟩ := Prod.mk.inj heq
    exact Target.directiveRest?_eq_some_iff.1 hrest'
  refine ⟨hsound, fun h => ?_⟩
  have hrest := Target.directiveRest?_eq_some_iff.2 h
  cases hline : directive? line with
  | none =>
    have hnone := List.findSome?_eq_none_iff.1 hline target (Target.mem_all target)
    rw [hrest] at hnone
    cases hnone
  | some found =>
    -- whichever token is tried first, no other one fits the line
    obtain ⟨own, rest'⟩ := found
    have hown := hsound hline
    obtain rfl : own = target := (hown.unique h).1
    rw [Target.directiveRest?_eq_some_iff.2 hown, Option.some_inj] at hrest
    rw [hrest]

/-- Nothing is found exactly if the line is a directive for no target. -/
theorem directive?_eq_none_iff :
    directive? line = none ↔ ∀ (target : Target) (rest : String),
      ¬ target.Directs (String.ofList line) rest := by
  rw [Option.eq_none_iff_forall_ne_some]
  constructor
  · intro h target rest hrest
    exact h (target, rest.toList) (directive?_eq_some_iff.2 (by rwa [String.ofList_toList]))
  · rintro h ⟨target, rest⟩ hrest
    exact h target (String.ofList rest) (directive?_eq_some_iff.1 hrest)

/-- A line that keeps its rest for one target. -/
def Directive (line : String) : Prop :=
  ∃ (target : Target) (rest : String), target.Directs line rest

theorem directive?_eq_none_iff_not_directive {line : String} :
    directive? line.toList = none ↔ ¬ Directive line := by
  rw [directive?_eq_none_iff, String.ofList_toList, Directive]
  push Not
  rfl

instance (line : String) : Decidable (Directive line) :=
  decidable_of_iff (directive? line.toList ≠ none) <| by
    rw [Ne, directive?_eq_none_iff_not_directive, not_not]

/-! ## One line -/

/-- A line reads as a directive around a directive exactly if it is one. -/
theorem nested?_read_eq_none_iff (line : String) : (read line).nested? = none ↔ ¬ Nested line := by
  unfold read
  split
  · next hline =>
    have hnone := directive?_eq_none_iff.1 hline
    rw [String.ofList_toList] at hnone
    refine iff_of_true rfl ?_
    rintro ⟨outer, -, rest, -, houter, -⟩
    exact hnone outer rest houter
  · next outer rest hline =>
    have houter := directive?_eq_some_iff.1 hline
    rw [String.ofList_toList] at houter
    split
    · next hrest =>
      refine iff_of_true rfl ?_
      rintro ⟨outer', inner, rest', inside, houter', hinner⟩
      obtain ⟨-, rfl⟩ := houter.unique houter'
      exact directive?_eq_none_iff.1 hrest inner inside hinner
    · next inner inside hrest =>
      refine iff_of_false (by simp [nested?]) (not_not_intro ?_)
      exact ⟨outer, inner, String.ofList rest, String.ofList inside, houter,
        directive?_eq_some_iff.1 hrest⟩

instance (line : String) : Decidable (Nested line) :=
  decidable_of_iff ((read line).nested? ≠ none) <| by
    rw [Ne, nested?_read_eq_none_iff, not_not]

/-- What a line says to a target: all of it, unless it is a directive; the rest of a directive for
this target, and nothing of a directive for another one. -/
def resolve? (target : Target) (line : String) : Option String :=
  match directive? line.toList with
  | none => some line
  | some (own, rest) => if own = target then some (String.ofList rest) else none

/-- A line that is a directive for another target. -/
def ForOther (target : Target) (line : String) : Prop :=
  ∃ (own : Target) (rest : String), own ≠ target ∧ own.Directs line rest

/-- A line says its rest to the target that it is a directive for, and all of itself if it is
none. -/
theorem resolve?_eq_some_iff {line text : String} :
    resolve? target line = some text ↔
      target.Directs line text ∨
        text = line ∧ ∀ (own : Target) (rest : String), ¬ own.Directs line rest := by
  unfold resolve?
  split
  · next hline =>
    have hnone := directive?_eq_none_iff.1 hline
    rw [String.ofList_toList] at hnone
    rw [Option.some_inj]
    constructor
    · rintro rfl
      exact .inr ⟨rfl, hnone⟩
    · rintro (h | ⟨rfl, -⟩)
      · exact absurd h (hnone _ _)
      · rfl
  · next own rest hline =>
    have hown := directive?_eq_some_iff.1 hline
    rw [String.ofList_toList] at hown
    split
    · next htarget =>
      subst htarget
      rw [Option.some_inj]
      constructor
      · rintro rfl
        exact .inl hown
      · rintro (h | ⟨-, hnone⟩)
        · exact (hown.unique h).2
        · exact absurd hown (hnone _ _)
    · next htarget =>
      refine iff_of_false (by simp) ?_
      rintro (h | ⟨-, hnone⟩)
      · exact htarget (hown.unique h).1
      · exact hnone _ _ hown

/-- A line says nothing to a target exactly if it is a directive for another one. -/
theorem resolve?_eq_none_iff {line : String} :
    resolve? target line = none ↔ ForOther target line := by
  rw [Option.eq_none_iff_forall_ne_some]
  constructor
  · intro h
    by_contra hother
    have hown : ∃ (own : Target) (rest : String), own.Directs line rest := by
      by_contra hnone
      push Not at hnone
      exact h line (resolve?_eq_some_iff.2 (.inr ⟨rfl, hnone⟩))
    obtain ⟨own, rest, hown⟩ := hown
    obtain rfl : own = target := by
      by_contra hne
      exact hother ⟨own, rest, hne, hown⟩
    exact h rest (resolve?_eq_some_iff.2 (.inl hown))
  · rintro ⟨own, rest, hne, hown⟩ text htext
    rcases resolve?_eq_some_iff.1 htext with h | ⟨-, hnone⟩
    · exact hne (hown.unique h).1
    · exact hnone own rest hown

instance (target : Target) (line : String) : Decidable (ForOther target line) :=
  decidable_of_iff _ resolve?_eq_none_iff

/-- What a line says to a target is no directive. -/
theorem directive?_of_resolve? {line text : String} (hnested : ¬ Nested line)
    (h : resolve? target line = some text) : directive? text.toList = none := by
  rw [directive?_eq_none_iff, String.ofList_toList]
  rcases resolve?_eq_some_iff.1 h with h | ⟨rfl, hnone⟩
  · intro inner inside hinner
    exact hnested ⟨target, inner, text, inside, h, hinner⟩
  · exact hnone

/-- What a line says to a target stands at its end. -/
theorem isSuffix_of_resolve? {line text : String} (h : resolve? target line = some text) :
    text.toList <:+ line.toList := by
  rcases resolve?_eq_some_iff.1 h with h | ⟨rfl, -⟩
  · exact h.isSuffix
  · exact List.suffix_rfl

/-- A line that is no directive is plain. -/
theorem read_of_directive?_eq_none {line : String} (h : directive? line.toList = none) :
    read line = .plain (.read line.toList) := by
  rw [read, h]

/-- A target sees of a line what the line says to it, as this reads by itself. -/
theorem keep?_read {line : String} (hnested : ¬ Nested line) (target : Target) :
    (read line).keep? target
      = (resolve? target line).map fun text => PlainLine.read text.toList := by
  cases hline : directive? line.toList with
  | none =>
    rw [read_of_directive?_eq_none hline, resolve?, hline]
    rfl
  | some found =>
    obtain ⟨own, rest⟩ := found
    have hown := directive?_eq_some_iff.1 hline
    rw [String.ofList_toList] at hown
    have hrest : directive? rest = none := by
      rw [directive?_eq_none_iff]
      intro inner inside hinner
      exact hnested ⟨own, inner, String.ofList rest, inside, hown, hinner⟩
    have hread : read line = .directive own (.read rest) := by
      rw [read, hline]
      simp only [hrest]
    rw [hread, resolve?, hline]
    by_cases htarget : own = target
    · simp [keep?, htarget]
    · simp [keep?, htarget]

/-- The text that a target sees of a line ends the line, and text that it sees as code is code by
itself. -/
theorem of_keep?_read {line content : String} {kind : Kind} (hnested : ¬ Nested line)
    (h : (read line).keep? target = some (.text kind content)) :
    content.toList <:+ line.toList ∧
      (kind = .code → read content = .plain (.text .code content)) := by
  rw [keep?_read hnested] at h
  obtain ⟨text, htext, hcontent⟩ := Option.map_eq_some_iff.1 h
  refine ⟨(PlainLine.isSuffix_of_read hcontent).trans (isSuffix_of_resolve? htext), ?_⟩
  rintro rfl
  obtain rfl : content = text := String.toList_inj.1 (PlainLine.eq_of_read_code hcontent)
  rw [read_of_directive?_eq_none (directive?_of_resolve? hnested htext), hcontent]

/-! ## A whole text -/

/-- There is no fault exactly if no line has a directive inside another. -/
theorem nestedFault?_eq_none_iff {lines : List Line} :
    nestedFault? lines = none ↔ ∀ line ∈ lines, line.nested? = none := by
  unfold nestedFault?
  rw [List.findSome?_eq_none_iff]
  constructor
  · intro h line hline
    obtain ⟨i, hi⟩ := List.mem_iff_getElem?.1 hline
    exact Option.map_eq_none_iff.1 (h (line, i) (List.mem_zipIdx_iff_getElem?.2 hi))
  · intro h (line, i) hline
    exact Option.map_eq_none_iff.2 (h line (List.fst_mem_of_mem_zipIdx hline))

/-- The positions apart, a target sees the lines one by one. -/
theorem map_fst_kept (target : Target) (lines : List Line) :
    (lines.zipIdx.filterMap fun (line, i) => (line.keep? target).map (·, i)).map (·.1)
      = lines.filterMap (keep? target) := by
  have hfst : ∀ pair : Line × Nat, ((pair.1.keep? target).map (·, pair.2)).map Prod.fst
      = pair.1.keep? target := by
    intro pair
    cases pair.1.keep? target <;> rfl
  rw [List.map_filterMap]
  calc lines.zipIdx.filterMap (fun pair => ((pair.1.keep? target).map (·, pair.2)).map Prod.fst)
      = lines.zipIdx.filterMap (keep? target ∘ Prod.fst) := by
        simp only [hfst]
        rfl
    _ = (lines.zipIdx.map Prod.fst).filterMap (keep? target) := List.filterMap_map.symm
    _ = lines.filterMap (keep? target) := by rw [List.zipIdx_map_fst]

end Line

/-- The lines that a target sees of a text, directives around directives apart. -/
def Line.seen (target : Target) (source : String) : List PlainLine :=
  (Text.lines source).filterMap fun line => (Line.read line).keep? target

/-- A text is read into chunks unless some line of it is a directive around a directive; the chunks
are those of the lines that the target sees. -/
theorem Chunk.parse_eq_ok_iff {source : String} {chunks : List Chunk} :
    parse source target = .ok chunks ↔
      (∀ line ∈ Text.lines source, ¬ Line.Nested line) ∧
        chunks = group (Line.seen target source) := by
  have hnested : Line.nestedFault? (Line.readAll source) = none ↔
      ∀ line ∈ Text.lines source, ¬ Line.Nested line := by
    rw [Line.nestedFault?_eq_none_iff, Line.readAll, List.forall_mem_map]
    simp only [Line.nested?_read_eq_none_iff]
  rw [← hnested, parse, Line.keptFor]
  cases Line.nestedFault? (Line.readAll source) with
  | some fault =>
    constructor
    · intro h
      cases h
    · rintro ⟨h, -⟩
      cases h
  | none =>
    show Except.ok (group _) = Except.ok chunks ↔ _
    rw [Line.map_fst_kept, Line.readAll, List.filterMap_map, Except.ok.injEq, Line.seen]
    simp only [true_and, Function.comp_def]
    exact eq_comm

/-- A text of plain lines is read into chunks alike for all targets. -/
theorem Chunk.parse_of_plain {source : String} {plain : List PlainLine}
    (h : Line.readAll source = plain.map .plain) (target : Target) :
    parse source target = .ok (group plain) := by
  have hnested : ∀ line ∈ Text.lines source, ¬ Line.Nested line := by
    intro line hline
    have hmem : Line.read line ∈ plain.map .plain := by
      rw [← h]
      exact List.mem_map_of_mem hline
    obtain ⟨own, -, hown⟩ := List.mem_map.1 hmem
    rw [← Line.nested?_read_eq_none_iff, ← hown]
    rfl
  have hseen : Line.seen target source = plain := by
    have hkeep : Line.keep? target ∘ Line.plain = some := rfl
    calc Line.seen target source = (Line.readAll source).filterMap (Line.keep? target) := by
          rw [Line.seen, Line.readAll, List.filterMap_map]
          rfl
      _ = plain := by rw [h, List.filterMap_map, hkeep, List.filterMap_some]
  rw [parse_eq_ok_iff, hseen]
  exact ⟨hnested, rfl⟩

end Weave
