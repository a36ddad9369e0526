import Mathlib.Data.Finset.Insert
import Mathlib.Data.List.Infix
import Weave.Document

/-!
# Line ends

The two-character line ends of a text become single newlines before anybody sees it, so that it does
not matter which of its lines have them. `addReturns` puts a carriage return before some of the
newlines of a text. As long as no newline of the text had one, the text that is left when line ends
are unified is the text before (`unifyNewlines_addReturns`), and with it everything that a run makes
of it (`weave_addReturns`), be it a document or an error. Carriage returns elsewhere stay what they
are.
-/

namespace Weave

namespace Text

/-- A character with its position, preceded by a carriage return if it is a newline and the position
is one of the chosen ones. -/
def addReturn (chosen : Finset ℕ) : Char × ℕ → List Char
  | (c, i) => if c = '\n' ∧ i ∈ chosen then ['\r', '\n'] else [c]

/-- A text in which the newlines at the chosen positions have a carriage return before them. -/
def addReturns (chosen : Finset ℕ) (s : String) : String :=
  String.ofList (s.toList.zipIdx.flatMap (addReturn chosen))

/-- No carriage return of a text stands directly before a newline. -/
def NoReturnNewline (s : List Char) : Prop :=
  ¬ ['\r', '\n'] <:+: s

instance (s : List Char) : Decidable (NoReturnNewline s) :=
  inferInstanceAs (Decidable (¬ ['\r', '\n'] <:+: s))

variable {c : Char} {s : List Char} {chosen : Finset ℕ}

/-- Only the two characters at the front can be new to a longer text. -/
theorem noReturnNewline_cons_iff :
    NoReturnNewline (c :: s) ↔ ¬ (c = '\r' ∧ s.head? = some '\n') ∧ NoReturnNewline s := by
  have hprefix : ['\r', '\n'] <+: c :: s ↔ c = '\r' ∧ s.head? = some '\n' := by
    cases s with
    | nil => simp
    | cons d s => simp [eq_comm]
  rw [NoReturnNewline, List.infix_cons_iff, not_or, hprefix, NoReturnNewline]

/-- A character stays unless it is the carriage return of a line end. -/
theorem unifyNewlineChars_cons (h : ¬ (c = '\r' ∧ s.head? = some '\n')) :
    unifyNewlineChars (c :: s) = c :: unifyNewlineChars s := by
  refine unifyNewlineChars.eq_2 c s fun rest hc hs => h ⟨hc, ?_⟩
  rw [hs]
  rfl

/-- Carriage returns are added before newlines only, so that a text that does not begin with a
newline begins with the same character as before. -/
theorem head?_flatMap_addReturn (h : s.head? ≠ some '\n') (start : ℕ) :
    ((s.zipIdx start).flatMap (addReturn chosen)).head? = s.head? := by
  cases s with
  | nil => rfl
  | cons d s =>
    have hadd : addReturn chosen (d, start) = [d] := by
      refine if_neg fun hchosen => h ?_
      rw [hchosen.1]
      rfl
    rw [List.zipIdx_cons, List.flatMap_cons, hadd]
    rfl

/-- The carriage returns that were added are taken away again, and nothing else. -/
theorem unifyNewlineChars_flatMap_addReturn (h : NoReturnNewline s) (start : ℕ) :
    unifyNewlineChars ((s.zipIdx start).flatMap (addReturn chosen)) = s := by
  induction s generalizing start with
  | nil => rfl
  | cons c s ih =>
    obtain ⟨hpair, hs⟩ := noReturnNewline_cons_iff.1 h
    rw [List.zipIdx_cons, List.flatMap_cons]
    by_cases hchosen : c = '\n' ∧ start ∈ chosen
    · have hadd : addReturn chosen (c, start) = ['\r', '\n'] := if_pos hchosen
      rw [hadd, hchosen.1]
      show '\n' :: unifyNewlineChars ((s.zipIdx (start + 1)).flatMap (addReturn chosen)) = '\n' :: s
      rw [ih hs]
    · have hadd : addReturn chosen (c, start) = [c] := if_neg hchosen
      rw [hadd, List.singleton_append, unifyNewlineChars_cons, ih hs]
      -- if `c` is a carriage return, then neither text has a newline behind it
      intro hand
      have hhead : s.head? ≠ some '\n' := fun hhead => hpair ⟨hand.1, hhead⟩
      rw [head?_flatMap_addReturn hhead] at hand
      exact hhead hand.2

/-- Returns that are added before newlines are what unifying takes away. -/
theorem unifyNewlines_addReturns {s : String} (h : NoReturnNewline s.toList)
    (chosen : Finset ℕ) : unifyNewlines (addReturns chosen s) = s := by
  rw [unifyNewlines, addReturns, String.toList_ofList, unifyNewlineChars_flatMap_addReturn h,
    String.ofList_toList]

theorem addReturns_empty (s : String) : addReturns ∅ s = s := by
  have hadd : addReturn ∅ = fun p => [p.1] := by
    funext ⟨c, i⟩
    simp [addReturn]
  rw [addReturns, hadd, ← List.map_eq_flatMap, List.zipIdx_map_fst, String.ofList_toList]

/-- Without two-character line ends there is nothing to unify. -/
theorem unifyNewlines_of_noReturnNewline {s : String} (h : NoReturnNewline s.toList) :
    unifyNewlines s = s := by
  have hnone : unifyNewlines (addReturns ∅ s) = s := unifyNewlines_addReturns h ∅
  rwa [addReturns_empty] at hnone

end Text

open Text

namespace Document

/-- A hook that refuses every text, in the words of the text itself, tells which text it sees. -/
theorem weave_refusing (source : String) (target : Target) (options : Options) (hooks : Hooks) :
    weave source target options { hooks with before := .error }
      = .error (hookError .before (unifyNewlines source)) := rfl

/-- What a run gives depends on the text with unified line ends only. -/
theorem weave_of_unifyNewlines_eq {source source' : String}
    (h : unifyNewlines source' = unifyNewlines source) (target : Target) (options : Options)
    (hooks : Hooks) :
    weave source' target options hooks = weave source target options hooks := by
  rw [weave_eq, weave_eq, h]

/-- Whichever line ends of a source become carriage return and newline, a run gives the same
document or the same error, and the hook before has seen the same text: the source as it was. -/
theorem weave_addReturns (source : String) (hsource : NoReturnNewline source.toList)
    (chosen : Finset ℕ) (target : Target) (options : Options) (hooks : Hooks) :
    weave (addReturns chosen source) target options hooks = weave source target options hooks ∧
      ∀ text ∈ [addReturns chosen source, source],
        weave text target options { hooks with before := .error }
          = .error (hookError .before source) := by
  have hadded : unifyNewlines (addReturns chosen source) = source :=
    unifyNewlines_addReturns hsource chosen
  have hplain : unifyNewlines source = source := unifyNewlines_of_noReturnNewline hsource
  refine ⟨weave_of_unifyNewlines_eq (hadded.trans hplain.symm) target options hooks, ?_⟩
  intro text htext
  have hunify : unifyNewlines text = source := by
    obtain rfl | htext := List.mem_cons.1 htext
    · exact hadded
    · obtain rfl := List.mem_singleton.1 htext
      exact hplain
  rw [weave_refusing, hunify]

/-- Two of five line ends, in a source with a carriage return inside a line and a directive around a
directive in its fourth line. -/
theorem weave_addReturns_mixed :
    let source := "#' A\rB\n\nx = 1\n#md #nb y\nz\n"
    let source' := "#' A\rB\r\n\nx = 1\n#md #nb y\r\nz\n"
    NoReturnNewline source.toList ∧ addReturns {6, 23} source = source' ∧
      ∀ (target : Target) (options : Options),
        weave source' target options {}
          = .error ⟨.nestedDirective 4 .markdown .notebook, some .filter⟩ := by
  intro source source'
  have hsource : NoReturnNewline source.toList := by decide
  have hadd : addReturns {6, 23} source = source' := by decide
  refine ⟨hsource, hadd, fun target options => ?_⟩
  have hsame := (weave_addReturns source hsource {6, 23} target options {}).1
  rw [hadd] at hsame
  have hparse : ∀ target ∈ Target.all, Chunk.parse (unifyNewlines source) target
      = .error (.nestedDirective 4 .markdown .notebook) := by decide
  rw [hsame, weave_of_no_hooks, hparse target (Target.mem_all target)]
  rfl

end Document

end Weave
