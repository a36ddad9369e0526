import Mathlib.Logic.ExistsUnique
import Weave.Proofs.Line.Reading

/-!
# The grammar of lines

What a line must look like to read as it does is said without reading it: `PlainLine.Spelled` for a
line that is no directive, `Line.Spelled` for any line, where the rest of a directive is a line again.
A line is spelled in one way only, and that is how it reads (`Line.read_eq_iff_spelled`). Of the rules
that tell lines by their beginnings (`Line.Rule`) every line fits exactly one, so that it makes no
difference in which order they are tried (`Line.read_grammar`).
-/

namespace Weave

/-! ## Lines that are no directives -/

/-- A line that begins with a token. -/
def BeginsWith (token line : String) : Prop :=
  ∃ rest, line = token ++ rest

theorem beginsWith_iff_isPrefix {token line : String} :
    BeginsWith token line ↔ token.toList <+: line.toList := by
  constructor
  · rintro ⟨rest, rfl⟩
    rw [String.toList_append]
    exact List.prefix_append _ _
  · rintro ⟨rest, hrest⟩
    refine ⟨String.ofList rest, ?_⟩
    rw [← String.toList_inj, String.toList_append, String.toList_ofList, hrest]

instance (token line : String) : Decidable (BeginsWith token line) :=
  decidable_of_iff _ beginsWith_iff_isPrefix.symm

/-- No line begins with two tokens of the same length. -/
theorem BeginsWith.unique {token token' line : String} (h : BeginsWith token line)
    (h' : BeginsWith token' line) (hlength : token.toList.length = token'.toList.length) :
    token = token' := by
  rw [beginsWith_iff_isPrefix] at h h'
  exact String.toList_inj.1
    ((List.prefix_of_prefix_length_le h h' (Nat.le_of_eq hlength)).eq_of_length hlength)

namespace PlainLine

/-- The token of a split. -/
def splitToken : String := "#-"

/-- The token of prose. -/
def proseToken : String := "#'"

/-- How a line that is no directive is spelled. One space after the token of prose belongs to the
token. -/
def Spelled (line : String) : PlainLine → Prop
  | .split => BeginsWith splitToken line
  | .text .markdown content =>
    line = proseToken ++ " " ++ content ∨
      line = proseToken ++ content ∧ content.toList.head? ≠ some ' '
  | .text .code content =>
    content = line ∧ ¬ BeginsWith splitToken line ∧ ¬ BeginsWith proseToken line

variable {line content content' : String} {plain plain' : PlainLine}

/-- No line begins with both tokens. -/
theorem not_beginsWith_proseToken (h : BeginsWith splitToken line) :
    ¬ BeginsWith proseToken line := by
  intro hprose
  exact absurd (h.unique hprose (by decide)) (by decide)

/-- A line is spelled as it reads. -/
theorem spelled_read (line : String) : (read line.toList).Spelled line := by
  have hline (front : String) {rest : List Char} (h : line.toList = front.toList ++ rest) :
      line = front ++ String.ofList rest := by
    rw [← String.toList_inj, h, String.toList_append, String.toList_ofList]
  unfold read
  -- the cases come in the order in which they are tried: each one knows that those before it failed
  split
  · next rest h => exact ⟨_, hline splitToken h⟩
  · next rest h => exact .inl (hline (proseToken ++ " ") h)
  · next rest hspace h =>
    refine .inr ⟨hline proseToken h, ?_⟩
    rw [String.toList_ofList]
    intro hhead
    obtain ⟨tail, rfl⟩ := List.head?_eq_some_iff.1 hhead
    exact hspace tail rfl
  · next hsplit _ hprose =>
    refine ⟨String.ofList_toList, ?_, ?_⟩
    · rintro ⟨rest, rfl⟩
      exact hsplit rest.toList String.toList_append
    · rintro ⟨rest, rfl⟩
      exact hprose rest.toList String.toList_append

/-- Prose is spelled with its token. -/
theorem Spelled.beginsWith_proseToken (h : (text .markdown content).Spelled line) :
    BeginsWith proseToken line := by
  obtain h | ⟨h, -⟩ := h
  · exact ⟨" " ++ content, by rw [h, String.append_assoc]⟩
  · exact ⟨content, h⟩

/-- A space behind the token belongs to it or to the prose, not to either. -/
theorem Spelled.content_unique (h : (text .markdown content).Spelled line)
    (h' : (text .markdown content').Spelled line) : content = content' := by
  have hclash {s s' : String} (hs : line = proseToken ++ " " ++ s) (hs' : line = proseToken ++ s') :
      s'.toList.head? = some ' ' := by
    have heq : " " ++ s = s' := by
      rwa [hs, String.append_assoc, String.append_right_inj] at hs'
    rw [← heq, String.toList_append]
    rfl
  obtain h | ⟨h, hhead⟩ := h <;> obtain h' | ⟨h', hhead'⟩ := h'
  · rwa [h, String.append_right_inj] at h'
  · exact absurd (hclash h h') hhead'
  · exact absurd (hclash h' h) hhead
  · rwa [h, String.append_right_inj] at h'

/-- A line that is no directive is spelled in one way only. -/
theorem Spelled.unique (h : plain.Spelled line) (h' : plain'.Spelled line) : plain = plain' := by
  rcases plain with ⟨⟨⟩, content⟩ | _ <;> rcases plain' with ⟨⟨⟩, content'⟩ | _
  case text.markdown.text.markdown => rw [h.content_unique h']
  case text.markdown.text.code => exact absurd h.beginsWith_proseToken h'.2.2
  case text.markdown.split => exact absurd h.beginsWith_proseToken (not_beginsWith_proseToken h')
  case text.code.text.markdown => exact absurd h'.beginsWith_proseToken h.2.2
  case text.code.text.code => rw [h.1, h'.1]
  case text.code.split => exact absurd h' h.2.1
  case split.text.markdown => exact absurd h'.beginsWith_proseToken (not_beginsWith_proseToken h)
  case split.text.code => exact absurd h h'.2.1
  case split.split => rfl

end PlainLine

/-! ## All lines -/

namespace Line

/-- How a line is spelled. What is behind the token of a target is a line by itself. -/
def Spelled (line : String) : Line → Prop
  | .plain p => ¬ Directive line ∧ p.Spelled line
  | .directive target p => ∃ rest, target.Directs line rest ∧ ¬ Directive rest ∧ p.Spelled rest
  | .nested outer inner rest => outer.Directs line rest ∧ ∃ inside, inner.Directs rest inside

variable {line : String} {found found' : Line}

/-- A line is spelled as it reads. -/
theorem spelled_read (line : String) : (read line).Spelled line := by
  unfold read
  split
  · next hline =>
    exact ⟨directive?_eq_none_iff_not_directive.1 hline, PlainLine.spelled_read line⟩
  · next target rest hline =>
    have htarget := directive?_eq_some_iff.1 hline
    rw [String.ofList_toList] at htarget
    split
    · next hrest =>
      have hplain := PlainLine.spelled_read (String.ofList rest)
      rw [← String.toList_ofList (l := rest), directive?_eq_none_iff_not_directive] at hrest
      rw [String.toList_ofList] at hplain
      exact ⟨_, htarget, hrest, hplain⟩
    · next inner inside hrest =>
      exact ⟨htarget, String.ofList inside, directive?_eq_some_iff.1 hrest⟩

/-- A line is spelled in one way only. -/
theorem Spelled.unique (h : found.Spelled line) (h' : found'.Spelled line) : found = found' := by
  cases found with
  | plain p =>
    cases found' with
    | plain p' => rw [h.2.unique h'.2]
    | directive target' p' =>
      obtain ⟨rest', htarget', -⟩ := h'
      exact absurd ⟨target', rest', htarget'⟩ h.1
    | nested outer' inner' rest' => exact absurd ⟨outer', rest', h'.1⟩ h.1
  | directive target p =>
    obtain ⟨rest, htarget, hrest, hplain⟩ := h
    cases found' with
    | plain p' => exact absurd ⟨target, rest, htarget⟩ h'.1
    | directive target' p' =>
      obtain ⟨rest', htarget', -, hplain'⟩ := h'
      obtain ⟨rfl, rfl⟩ := htarget.unique htarget'
      rw [hplain.unique hplain']
    | nested outer' inner' rest' =>
      obtain ⟨houter', inside', hinner'⟩ := h'
      obtain ⟨-, rfl⟩ := htarget.unique houter'
      exact absurd ⟨inner', inside', hinner'⟩ hrest
  | nested outer inner rest =>
    obtain ⟨houter, inside, hinner⟩ := h
    cases found' with
    | plain p' => exact absurd ⟨outer, rest, houter⟩ h'.1
    | directive target' p' =>
      obtain ⟨rest', htarget', hrest', -⟩ := h'
      obtain ⟨-, rfl⟩ := houter.unique htarget'
      exact absurd ⟨inner, inside, hinner⟩ hrest'
    | nested outer' inner' rest' =>
      obtain ⟨houter', inside', hinner'⟩ := h'
      obtain ⟨rfl, rfl⟩ := houter.unique houter'
      rw [(hinner.unique hinner').1]

/-- A line reads as it is spelled. -/
theorem read_eq_iff_spelled : read line = found ↔ found.Spelled line := by
  constructor
  · rintro rfl
    exact spelled_read line
  · intro h
    exact (spelled_read line).unique h

/-! ## Rules -/

/-- The rules that tell lines by their beginnings. -/
inductive Rule where
  | directive (target : Target)
  | split
  | prose
  | code
  deriving DecidableEq

namespace Rule

/-- A line fits a rule, whatever the other rules say of it. Code is what no token stands before. -/
def Fits (line : String) : Rule → Prop
  | directive target => ∃ rest, target.Directs line rest
  | split => BeginsWith PlainLine.splitToken line
  | prose => BeginsWith PlainLine.proseToken line
  | code => ¬ Directive line ∧ ¬ BeginsWith PlainLine.splitToken line ∧
      ¬ BeginsWith PlainLine.proseToken line

/-- The first two characters of the token of a rule, by which it differs from all others. -/
def mark? : Rule → Option (List Char)
  | directive .markdown => some ['#', 'm']
  | directive .notebook => some ['#', 'n']
  | directive .script => some ['#', 'j']
  | split => some ['#', '-']
  | prose => some ['#', '\'']
  | code => none

variable {rule rule' : Rule}

/-- No two rules share a mark. -/
theorem eq_of_mark?_eq (h : rule.mark? = rule'.mark?) : rule = rule' := by
  rcases rule with ⟨⟨⟩⟩ | _ | _ | _ <;> rcases rule' with ⟨⟨⟩⟩ | _ | _ | _ <;>
    first | rfl | simp [mark?] at h

/-- A line that fits a rule with a mark begins with it. -/
theorem Fits.take_toList {mark : List Char} (h : rule.Fits line) (hmark : rule.mark? = some mark) :
    line.toList.take 2 = mark := by
  have hbegins {token : String} (h : BeginsWith token line) (hlength : token.toList.length = 2) :
      line.toList.take 2 = token.toList := by
    obtain ⟨rest, hrest⟩ := beginsWith_iff_isPrefix.1 h
    rw [← hrest, ← hlength, List.take_left]
  cases rule with
  | directive target =>
    obtain ⟨rest, htarget⟩ := h
    -- the token of a target is longer than its mark
    have htoken : line.toList.take 2 = target.token.toList.take 2 := by
      rw [← htarget.take_toList, List.take_take]
      rfl
    rw [htoken]
    cases target <;> cases hmark <;> rfl
  | split =>
    cases hmark
    exact hbegins h rfl
  | prose =>
    cases hmark
    exact hbegins h rfl
  | code => cases hmark

/-- Where a token stands the line is no code. -/
theorem Fits.not_fits_code {mark : List Char} (h : rule.Fits line) (hmark : rule.mark? = some mark) :
    ¬ code.Fits line := by
  rintro ⟨hdirective, hsplit, hprose⟩
  cases rule with
  | directive target =>
    obtain ⟨rest, htarget⟩ := h
    exact hdirective ⟨target, rest, htarget⟩
  | split => exact hsplit h
  | prose => exact hprose h
  | code => cases hmark

/-- A line fits one rule only. -/
theorem Fits.unique (h : rule.Fits line) (h' : rule'.Fits line) : rule = rule' := by
  -- two marks are the same two characters of the line, and code has no mark to compare
  apply eq_of_mark?_eq
  cases hmark : rule.mark? with
  | none =>
    cases hmark' : rule'.mark? with
    | none => rfl
    | some mark' =>
      obtain rfl : rule = code := eq_of_mark?_eq hmark
      exact absurd h (h'.not_fits_code hmark')
  | some mark =>
    cases hmark' : rule'.mark? with
    | none =>
      obtain rfl : rule' = code := eq_of_mark?_eq hmark'
      exact absurd h' (h.not_fits_code hmark)
    | some mark' => rw [← h.take_toList hmark, h'.take_toList hmark']

end Rule

/-- The rule that a line has been read by. -/
def rule : Line → Rule
  | .plain .split => .split
  | .plain (.text .markdown _) => .prose
  | .plain (.text .code _) => .code
  | .directive target _ => .directive target
  | .nested outer _ _ => .directive outer

/-- A line that is spelled in some way fits the rule of it. -/
theorem Spelled.fits_rule (h : found.Spelled line) : found.rule.Fits line := by
  cases found with
  | plain p =>
    obtain ⟨hdirective, hplain⟩ := h
    rcases p with ⟨⟨⟩, content⟩ | _
    case text.markdown => exact hplain.beginsWith_proseToken
    case text.code => exact ⟨hdirective, hplain.2⟩
    case split => exact hplain
  | directive target p =>
    obtain ⟨rest, htarget, -⟩ := h
    exact ⟨rest, htarget⟩
  | nested outer inner rest => exact ⟨rest, h.1⟩

/-- A line fits the rule that it is read by, and no other. -/
theorem fits_iff_rule_read_eq {rule : Rule} : rule.Fits line ↔ (read line).rule = rule := by
  constructor
  · intro h
    exact (spelled_read line).fits_rule.unique h
  · rintro rfl
    exact (spelled_read line).fits_rule

instance (line : String) (rule : Rule) : Decidable (rule.Fits line) :=
  decidable_of_iff _ fits_iff_rule_read_eq.symm

/-- The grammar of lines: a line reads as it is spelled, in the only way there is. It fits the rule by
which it is read and no other, so that this rule is found in whatever order the rules are tried. -/
theorem read_grammar (line : String) :
    (∀ found, read line = found ↔ found.Spelled line) ∧
    (∀ rule : Rule, rule.Fits line ↔ (read line).rule = rule) ∧
    ∀ order : List Rule, (∀ rule, rule ∈ order) →
      order.find? (fun rule => rule.Fits line) = some (read line).rule := by
  refine ⟨fun found => read_eq_iff_spelled, fun rule => fits_iff_rule_read_eq, ?_⟩
  intro order horder
  cases hfind : order.find? fun rule => rule.Fits line with
  | none =>
    have hnone := List.find?_eq_none.1 hfind (read line).rule (horder _)
    exact absurd (decide_eq_true (fits_iff_rule_read_eq.2 rfl)) hnone
  | some rule =>
    have hfits := List.find?_some hfind
    rw [fits_iff_rule_read_eq.1 (of_decide_eq_true hfits)]

end Line

end Weave
