import Weave.Document
import Weave.Proofs.Error.Results
import Weave.Proofs.Line.Reading

/-!
# When a source makes no document

Three things can keep a source from becoming a document, in this order: the hook before refuses the
text, a line of the text is a directive around a directive, or the hook after refuses the document
(`weave_eq_error_iff`). Which line it is depends on the text alone: it is the first directive around
a directive (`Line.FirstNested`), for whichever targets its tokens are, so that the error is the same
for every target.
-/

namespace Weave

open Text

namespace Line

/-! ## The first directive around a directive -/

/-- Line `i`, counted from zero, is a directive for `outer` around one for `inner`, and no line before
it is a directive around a directive. -/
structure FirstNested (lines : List String) (i : Nat) (outer inner : Target) : Prop where
  nested : ∃ line rest inside, lines[i]? = some line ∧ outer.Directs line rest ∧
    inner.Directs rest inside
  before : ∀ line ∈ lines.take i, ¬ Nested line

/-- The targets that are read off a line are those of its two tokens. -/
theorem nested?_read_eq_some_iff {line : String} {outer inner : Target} :
    (read line).nested? = some (outer, inner) ↔
      ∃ rest inside, outer.Directs line rest ∧ inner.Directs rest inside := by
  constructor
  · intro h
    unfold read at h
    split at h
    · cases h
    · next own rest hline =>
      split at h
      · cases h
      · next own' inside hrest =>
        cases h
        have houter := directive?_eq_some_iff.1 hline
        rw [String.ofList_toList] at houter
        exact ⟨String.ofList rest, String.ofList inside, houter, directive?_eq_some_iff.1 hrest⟩
  · rintro ⟨rest, inside, houter, hinner⟩
    rw [← String.ofList_toList (s := line), ← String.ofList_toList (s := rest),
      ← directive?_eq_some_iff] at houter
    rw [← String.ofList_toList (s := rest), ← String.ofList_toList (s := inside),
      ← directive?_eq_some_iff] at hinner
    rw [read, houter]
    simp only [hinner]
    rfl

/-- The fault is that of the first line with one directive inside another, and tells its number. -/
theorem nestedFault?_eq_some_iff {lines : List Line} {fault : Fault} :
    nestedFault? lines = some fault ↔
      ∃ i line outer inner, lines[i]? = some line ∧ line.nested? = some (outer, inner) ∧
        (∀ line ∈ lines.take i, line.nested? = none) ∧
        fault = .nestedDirective (i + 1) outer inner := by
  unfold nestedFault?
  rw [List.findSome?_eq_some_iff]
  constructor
  · rintro ⟨before, ⟨line, i⟩, behind, hzip, hfound, hbefore⟩
    obtain ⟨⟨outer, inner⟩, hnested, rfl⟩ := Option.map_eq_some_iff.1 hfound
    have hlines : lines = before.map Prod.fst ++ line :: behind.map Prod.fst := by
      rw [← List.zipIdx_map_fst 0 lines, hzip]
      simp
    -- the number that was found is the position, as the lines are numbered in order
    have hi : i = before.length := by
      have hget : lines.zipIdx[before.length]? = some (line, i) := by
        rw [hzip]
        simp
      rw [List.getElem?_zipIdx] at hget
      obtain ⟨_, -, hpair⟩ := Option.map_eq_some_iff.1 hget
      simpa using (congrArg Prod.snd hpair).symm
    have htake : lines.take i = before.map Prod.fst := by
      rw [hlines, hi, ← List.length_map Prod.fst, List.take_left]
    refine ⟨i, line, outer, inner, by simp [hlines, hi], hnested, ?_, rfl⟩
    rw [htake, List.forall_mem_map]
    intro pair hpair
    exact Option.map_eq_none_iff.1 (hbefore pair hpair)
  · rintro ⟨i, line, outer, inner, hline, hnested, hbefore, rfl⟩
    obtain ⟨hi, hget⟩ := List.getElem?_eq_some_iff.1 hline
    have hlines : lines = lines.take i ++ line :: lines.drop (i + 1) := by
      rw [← hget]
      simp
    have hlength : (lines.take i).length = i := List.length_take_of_le (Nat.le_of_lt hi)
    refine ⟨(lines.take i).zipIdx, (line, i), (lines.drop (i + 1)).zipIdx (i + 1), ?_, ?_, ?_⟩
    · refine (congrArg List.zipIdx hlines).trans ?_
      rw [List.zipIdx_append, hlength, Nat.zero_add, List.zipIdx_cons]
    · show line.nested?.map _ = _
      rw [hnested]
      rfl
    · intro pair hpair
      exact Option.map_eq_none_iff.2 (hbefore pair.1 (List.fst_mem_of_mem_zipIdx hpair))

end Line

/-- Reading a text into chunks fails exactly at the first directive around a directive. -/
theorem Chunk.parse_eq_error_iff {text : String} {target : Target} {fault : Fault} :
    parse text target = .error fault ↔
      ∃ i outer inner, Line.FirstNested (Text.lines text) i outer inner ∧
        fault = .nestedDirective (i + 1) outer inner := by
  have hparse : parse text target = .error fault ↔
      Line.nestedFault? (Line.readAll text) = some fault := by
    rw [parse, Line.keptFor]
    cases Line.nestedFault? (Line.readAll text) with
    | none =>
      constructor
      · intro h
        cases h
      · intro h
        cases h
    | some first =>
      show Except.error first = Except.error fault ↔ _
      rw [Except.error.injEq, Option.some_inj]
  rw [hparse, Line.nestedFault?_eq_some_iff, Line.readAll]
  constructor
  · rintro ⟨i, read, outer, inner, hread, hnested, hbefore, rfl⟩
    rw [List.getElem?_map] at hread
    obtain ⟨line, hline, rfl⟩ := Option.map_eq_some_iff.1 hread
    rw [← List.map_take, List.forall_mem_map] at hbefore
    obtain ⟨rest, inside, houter, hinner⟩ := Line.nested?_read_eq_some_iff.1 hnested
    refine ⟨i, outer, inner, ⟨⟨line, rest, inside, hline, houter, hinner⟩, ?_⟩, rfl⟩
    intro line hmem
    exact (Line.nested?_read_eq_none_iff line).1 (hbefore line hmem)
  · rintro ⟨i, outer, inner, ⟨⟨line, rest, inside, hline, houter, hinner⟩, hbefore⟩, rfl⟩
    refine ⟨i, Line.read line, outer, inner, by rw [List.getElem?_map, hline]; rfl,
      Line.nested?_read_eq_some_iff.2 ⟨rest, inside, houter, hinner⟩, ?_, rfl⟩
    rw [← List.map_take, List.forall_mem_map]
    intro line hmem
    exact (Line.nested?_read_eq_none_iff line).2 (hbefore line hmem)

/-! ## The errors of a run -/

/-- The hook for documents of this kind refuses the document. -/
def Hooks.Refuses (hooks : Hooks) (document : Document) (message : String) : Prop :=
  match document with
  | .text content => hooks.afterText content = .error message
  | .notebook book => hooks.afterNotebook book = .error message

namespace Document

/-- At the end only the hook after can refuse. -/
theorem finish_eq_error_iff {hooks : Hooks} {document : Document} {e : Error} :
    finish hooks document = .error e ↔
      ∃ message, hooks.Refuses document message ∧
        e = ⟨.hook .after message, some .postprocess⟩ := by
  cases document with
  | text content =>
    show ((hooks.afterText content).map Document.text).mapError _ = _ ↔ ∃ message,
      hooks.afterText content = .error message ∧ _
    simp only [Except.mapError_eq_error_iff, Except.map_eq_error_iff]
    rfl
  | notebook book =>
    show ((hooks.afterNotebook book).map Document.notebook).mapError _ = _ ↔ ∃ message,
      hooks.afterNotebook book = .error message ∧ _
    simp only [Except.mapError_eq_error_iff, Except.map_eq_error_iff]
    rfl

/-- A run takes three steps, and fails at the first of them that does. -/
theorem weave_eq_error_iff_steps {source : String} {target : Target} {options : Options}
    {hooks : Hooks} {e : Error} :
    weave source target options hooks = .error e ↔
      (∃ message, hooks.before (unifyNewlines source) = .error message ∧
        e = ⟨.hook .before message, some .preprocess⟩) ∨
      ∃ text, hooks.before (unifyNewlines source) = .ok text ∧
        ((∃ fault, Chunk.parse text target = .error fault ∧ e = ⟨fault, some .filter⟩) ∨
          ∃ chunks message, Chunk.parse text target = .ok chunks ∧
            hooks.Refuses (render target options chunks) message ∧
            e = ⟨.hook .after message, some .postprocess⟩) := by
  simp only [weave_eq, Except.bind_eq_error_iff, Except.mapError_eq_error_iff,
    Except.mapError_eq_ok_iff, finish_eq_error_iff]
  simp only [hookError, exists_and_left]

/-- The hooks that a run has called, with what: always the hook before, with the text whose line ends
are unified, and the hook after only if there is a document, with this document. No call is that of
the hook after for the other kind of document. -/
structure Called (source : String) (target : Target) (options : Options) (hooks : Hooks)
    (called : List HookCall) : Prop where
  refused : ∀ message, hooks.before (unifyNewlines source) = .error message →
    called = [.before (unifyNewlines source)]
  notRead : ∀ text fault, hooks.before (unifyNewlines source) = .ok text →
    Chunk.parse text target = .error fault → called = [.before (unifyNewlines source)]
  rendered : ∀ text chunks, hooks.before (unifyNewlines source) = .ok text →
    Chunk.parse text target = .ok chunks →
      called = [.before (unifyNewlines source), callOf (render target options chunks)]
  not_afterText : target = .notebook → ∀ content, .afterText content ∉ called
  not_afterNotebook : target ≠ .notebook → ∀ book, .afterNotebook book ∉ called

/-- A run calls the hook before, and behind it at most the hook after for a rendering. -/
theorem calls_cases (source : String) (target : Target) (options : Options) (hooks : Hooks) :
    calls source target options hooks = [.before (unifyNewlines source)] ∨
      ∃ chunks, calls source target options hooks
        = [.before (unifyNewlines source), callOf (render target options chunks)] := by
  rw [calls, run_run]
  cases hooks.before (unifyNewlines source) with
  | error message => exact Or.inl rfl
  | ok text =>
    dsimp only
    cases Chunk.parse text target with
    | error fault => exact Or.inl rfl
    | ok chunks => exact Or.inr ⟨chunks, rfl⟩

/-- The hooks that a run calls are these. -/
theorem called_calls (source : String) (target : Target) (options : Options) (hooks : Hooks) :
    Called source target options hooks (calls source target options hooks) where
  refused message hbefore := by rw [calls, run_run, hbefore]
  notRead text fault hbefore hparse := by
    rw [calls, run_run, hbefore]
    dsimp only
    rw [hparse]
  rendered text chunks hbefore hparse := by
    rw [calls, run_run, hbefore]
    dsimp only
    rw [hparse]
  not_afterText htarget content := by
    -- a notebook has been rendered if anything has
    subst htarget
    obtain hcalls | ⟨chunks, hcalls⟩ := calls_cases source .notebook options hooks
    · simp [hcalls]
    · simp [hcalls, render, callOf]
  not_afterNotebook htarget book := by
    obtain hcalls | ⟨chunks, hcalls⟩ := calls_cases source target options hooks
    · simp [hcalls]
    · cases target with
      | markdown => simp [hcalls, render, callOf]
      | notebook => exact absurd rfl htarget
      | script => simp [hcalls, render, callOf]

/-- A text with a directive around a directive makes no document, whatever the target is. -/
theorem weave_of_firstNested {source text : String} {hooks : Hooks} {i : Nat}
    {outer inner : Target} (hbefore : hooks.before (unifyNewlines source) = .ok text)
    (h : Line.FirstNested (lines text) i outer inner) (target : Target) (options : Options) :
    weave source target options hooks
      = .error ⟨.nestedDirective (i + 1) outer inner, some .filter⟩ := by
  have hparse : Chunk.parse text target = .error (.nestedDirective (i + 1) outer inner) :=
    Chunk.parse_eq_error_iff.2 ⟨i, outer, inner, h, rfl⟩
  exact weave_eq_error_iff_steps.2 (Or.inr ⟨text, hbefore, Or.inl ⟨_, hparse, rfl⟩⟩)

/-- A run fails exactly if the hook before refuses the source with unified line ends, or else a line
of the text that this hook gives is a directive around a directive, or else the hook after for the
kind of document that the target has refuses it; the error names the step, and for a directive the
number of the first such line and its two targets, which is the same for all targets. The hook after
for the other kind of document does not matter, and is never called. -/
theorem weave_eq_error_iff (source : String) (target : Target) (options : Options) (hooks : Hooks) :
    (∀ e, weave source target options hooks = .error e ↔
      (∃ message, hooks.before (unifyNewlines source) = .error message ∧
        e = ⟨.hook .before message, some .preprocess⟩) ∨
      ∃ text, hooks.before (unifyNewlines source) = .ok text ∧
        ((∃ i outer inner, Line.FirstNested (lines text) i outer inner ∧
          e = ⟨.nestedDirective (i + 1) outer inner, some .filter⟩) ∨
        (∀ line ∈ lines text, ¬ Line.Nested line) ∧ ∃ chunks message,
          Chunk.parse text target = .ok chunks ∧
            hooks.Refuses (render target options chunks) message ∧
            e = ⟨.hook .after message, some .postprocess⟩)) ∧
    (∀ text i outer inner, hooks.before (unifyNewlines source) = .ok text →
      Line.FirstNested (lines text) i outer inner → ∀ target' options',
        weave source target' options' hooks
          = .error ⟨.nestedDirective (i + 1) outer inner, some .filter⟩) ∧
    (target = .notebook → ∀ afterText,
      weave source target options { hooks with afterText } = weave source target options hooks) ∧
    (target ≠ .notebook → ∀ afterNotebook,
      weave source target options { hooks with afterNotebook }
        = weave source target options hooks) ∧
    Called source target options hooks (calls source target options hooks) := by
  refine ⟨?_, fun text i outer inner => weave_of_firstNested, ?_, ?_, called_calls _ _ _ _⟩
  · intro e
    rw [weave_eq_error_iff_steps]
    refine or_congr Iff.rfl (exists_congr fun text => and_congr_right fun _ => or_congr ?_ ?_)
    · constructor
      · rintro ⟨fault, hparse, rfl⟩
        obtain ⟨i, outer, inner, hnested, rfl⟩ := Chunk.parse_eq_error_iff.1 hparse
        exact ⟨i, outer, inner, hnested, rfl⟩
      · rintro ⟨i, outer, inner, hnested, rfl⟩
        exact ⟨_, Chunk.parse_eq_error_iff.2 ⟨i, outer, inner, hnested, rfl⟩, rfl⟩
    · constructor
      · rintro ⟨chunks, message, hparse, hrefuses, rfl⟩
        exact ⟨(Chunk.parse_eq_ok_iff.1 hparse).1, chunks, message, hparse, hrefuses, rfl⟩
      · rintro ⟨-, chunks, message, hparse, hrefuses, rfl⟩
        exact ⟨chunks, message, hparse, hrefuses, rfl⟩
  · rintro rfl afterText
    rfl
  · intro htarget afterNotebook
    cases target with
    | markdown => rfl
    | notebook => exact absurd rfl htarget
    | script => rfl

/-- Behind lines for other targets, and behind a line that a hook has put in front, comes the first of
two directives around directives: no target gets a document. A script without them is refused by the
hook after. -/
theorem weave_eq_error_iff_fifth :
    let source := "#' A\r\n#nb\n#nb x\n#jl #nb y\n#nb #nb\n"
    let hooks : Hooks :=
      { before := fun text => .ok ("#md x\n" ++ text), afterText := fun _ => .error "no" }
    Line.FirstNested (lines ("#md x\n" ++ unifyNewlines source)) 4 .script .notebook ∧
      (∀ target options, weave source target options hooks
        = .error ⟨.nestedDirective 5 .script .notebook, some .filter⟩) ∧
      ∀ options, weave "#nb x\n" .script options hooks
        = .error ⟨.hook .after "no", some .postprocess⟩ := by
  intro source hooks
  have hfirst : Line.FirstNested (lines ("#md x\n" ++ unifyNewlines source)) 4 .script .notebook := by
    exact ⟨⟨"#jl #nb y", "#nb y", "y", by decide, Or.inr rfl, Or.inr rfl⟩, by decide⟩
  refine ⟨hfirst, fun target options => ?_, fun options => ?_⟩
  · exact (weave_eq_error_iff source .markdown (.ofSettings {} "a") hooks).2.1 _ 4 _ _ rfl hfirst
      target options
  · exact ((weave_eq_error_iff "#nb x\n" .script options hooks).1 _).2
      (Or.inr ⟨_, rfl, Or.inr ⟨by decide, [], "no", rfl, rfl, rfl⟩⟩)

end Document

end Weave
