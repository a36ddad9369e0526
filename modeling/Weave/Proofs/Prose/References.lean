import Mathlib.Data.Nat.Find
import Mathlib.Tactic.Push
import Weave.Proofs.Text.Stops
import Weave.Prose.CrossReference

/-!
# References in a text

What counts as a reference is said by `CrossReference`, without looking for one. A text is cut in
one way only into references and what stands between them if no reference starts in between
(`Cut.Leftmost`), and stripping leaves the texts of the references of this cut in their places
(`existsUnique_cut`). In this cut the text of a reference may hold opening brackets, so that a bracket
which nobody closes before a reference is taken for the beginning of it (`strip_single`).
-/

namespace Weave

open Text

namespace CrossReference

/-- The word behind the at sign of a reference. -/
inductive Word where
  | ref
  | id
  deriving DecidableEq, Repr

def Word.name : Word → String
  | .ref => "ref"
  | .id => "id"

end CrossReference

/-- A reference such as `[text](@ref target)`. The target includes the blank that sets it off. -/
@[ext]
structure CrossReference where
  text : String
  word : CrossReference.Word
  target : String
  bracket_not_mem : ']' ∉ text.toList
  isBlank_head : target.toList.head?.all isBlank
  paren_not_mem : ')' ∉ target.toList

namespace CrossReference

/-- A reference as it is written. -/
def spelling (r : CrossReference) : String :=
  "[" ++ r.text ++ "](@" ++ r.word.name ++ r.target ++ ")"

theorem toList_spelling (r : CrossReference) :
    r.spelling.toList = '[' :: (r.text.toList ++ ']' :: '(' :: '@' ::
      (r.word.name.toList ++ (r.target.toList ++ [')']))) := by
  simp [spelling]

theorem length_spelling_pos (r : CrossReference) : 0 < r.spelling.length := by
  rw [← String.length_toList, toList_spelling]
  exact Nat.succ_pos _

/-! ## Reading a reference -/

section Reading

variable {s text rest : List Char}

theorem afterTarget?_append {target : List Char} (hblank : target.head?.all isBlank)
    (hparen : ')' ∉ target) (rest : List Char) :
    afterTarget? (target ++ ')' :: rest) = some rest := by
  cases target with
  | nil => rfl
  | cons c target =>
    have hc : c ≠ ')' := fun h => hparen (h ▸ List.mem_cons_self)
    have htarget : ')' ∉ target := fun h => hparen (List.mem_cons_of_mem c h)
    have hblank' : isBlank c = true := hblank
    unfold afterTarget?
    split
    · next heq => exact absurd (List.head_eq_of_cons_eq heq) hc
    · next heq =>
      obtain ⟨rfl, rfl⟩ := List.cons.inj heq
      rw [if_pos hblank', List.append_eq, dropWhile_append_cons htarget]
    · next heq => cases heq

/-- The target of a reference ends at the first closing parenthesis. -/
theorem exists_of_afterTarget? (h : afterTarget? s = some rest) :
    ∃ target : String, s = target.toList ++ ')' :: rest ∧
      target.toList.head?.all isBlank ∧ ')' ∉ target.toList := by
  unfold afterTarget? at h
  split at h
  · cases h
    exact ⟨"", rfl, rfl, by simp⟩
  · next c tail hne =>
    split at h
    · next hblank =>
      split at h
      · next head after hdrop =>
        cases h
        obtain ⟨htail, hparen⟩ := eq_append_cons_of_dropWhile hdrop
        refine ⟨String.ofList (c :: tail.takeWhile (· != ')')), ?_, ?_, ?_⟩
        · rw [String.toList_ofList, List.cons_append, ← htail]
        · simpa using hblank
        · rw [String.toList_ofList]
          exact List.not_mem_cons_of_ne_of_not_mem (Ne.symm hne) hparen
      · cases h
    · cases h
  · cases h

/-- Behind its opening bracket a reference is read. -/
theorem read?_spelling (r : CrossReference) (rest : List Char) :
    ∃ tail, r.spelling.toList = '[' :: tail ∧
      read? (tail ++ rest) = some (r.text.toList, rest) := by
  refine ⟨_, r.toList_spelling, ?_⟩
  have hafter := afterTarget?_append r.isBlank_head r.paren_not_mem rest
  simp only [List.append_assoc, List.cons_append, List.nil_append]
  unfold read?
  rw [dropWhile_append_cons r.bracket_not_mem, takeWhile_append_cons r.bracket_not_mem]
  cases r.word <;> simp [Word.name, hafter]

/-- What is read behind an opening bracket is a reference. -/
theorem exists_of_read? (h : read? s = some (text, rest)) :
    ∃ r : CrossReference, r.text.toList = text ∧ '[' :: s = r.spelling.toList ++ rest := by
  have hread (word : Word) {after : List Char}
      (hdrop : s.dropWhile (· != ']') = ']' :: '(' :: '@' :: (word.name.toList ++ after))
      (h : (afterTarget? after).map (s.takeWhile (· != ']'), ·) = some (text, rest)) :
      ∃ r : CrossReference, r.text.toList = text ∧ '[' :: s = r.spelling.toList ++ rest := by
    obtain ⟨rest', hafter, heq⟩ := Option.map_eq_some_iff.1 h
    obtain ⟨rfl, rfl⟩ := Prod.mk.inj heq
    obtain ⟨target, rfl, hblank, hparen⟩ := exists_of_afterTarget? hafter
    obtain ⟨hs, hbracket⟩ := eq_append_cons_of_dropWhile hdrop
    have hbracket' : ']' ∉ (String.ofList (s.takeWhile (· != ']'))).toList := by
      rwa [String.toList_ofList]
    refine ⟨⟨_, word, target, hbracket', hblank, hparen⟩, String.toList_ofList, ?_⟩
    rw [toList_spelling]
    simpa using hs
  unfold read? at h
  split at h
  · next after hdrop => exact hread .ref hdrop h
  · next after hdrop => exact hread .id hdrop h
  · cases h

/-- Whether a text begins with a reference. -/
def begins : List Char → Bool
  | '[' :: tail => (read? tail).isSome
  | _ => false

/-- A reference begins where the spelling of one does. -/
theorem begins_iff : begins s ↔ ∃ r : CrossReference, r.spelling.toList <+: s := by
  unfold begins
  split
  · next tail =>
    rw [Option.isSome_iff_exists]
    constructor
    · rintro ⟨⟨text, rest⟩, hread⟩
      obtain ⟨r, -, hr⟩ := exists_of_read? hread
      exact ⟨r, rest, hr.symm⟩
    · rintro ⟨r, rest, hr⟩
      obtain ⟨tail', htail', hread⟩ := r.read?_spelling rest
      rw [htail', List.cons_append, List.cons.injEq] at hr
      exact ⟨_, hr.2 ▸ hread⟩
  · next hne =>
    refine iff_of_false Bool.false_ne_true ?_
    rintro ⟨r, rest, rfl⟩
    rw [toList_spelling] at hne
    exact hne _ rfl

/-- At most one reference starts at a place. -/
theorem spelling_append_inj {r r' : CrossReference} {rest' : List Char}
    (h : r.spelling.toList ++ rest = r'.spelling.toList ++ rest') : r = r' ∧ rest = rest' := by
  obtain ⟨tail, htail, hread⟩ := r.read?_spelling rest
  obtain ⟨tail', htail', hread'⟩ := r'.read?_spelling rest'
  have htails : tail ++ rest = tail' ++ rest' := by
    rw [htail, htail', List.cons_append, List.cons_append] at h
    exact List.tail_eq_of_cons_eq h
  rw [htails, hread', Option.some_inj, Prod.mk.injEq] at hread
  obtain ⟨htext, rfl⟩ := hread
  refine ⟨?_, rfl⟩
  have hspelling : r.spelling.toList = r'.spelling.toList := List.append_cancel_right h
  have hends : r.word.name.toList ++ (r.target.toList ++ [')'])
      = r'.word.name.toList ++ (r'.target.toList ++ [')']) := by
    rw [toList_spelling, toList_spelling, htext] at hspelling
    simpa only [List.cons.injEq, List.append_cancel_left_eq, true_and] using hspelling
  have hword : r.word = r'.word := by
    -- the words differ in their first characters
    cases hr : r.word <;> cases hr' : r'.word <;> simp [hr, hr', Word.name] at hends ⊢
  have htarget : r.target.toList = r'.target.toList := by
    rw [hword] at hends
    exact List.append_cancel_right (List.append_cancel_left hends)
  exact CrossReference.ext (String.toList_inj.1 htext.symm) hword (String.toList_inj.1 htarget)

end Reading

/-! ## Cutting a text at its references -/

/-- A text, cut into references and what stands before, between and behind them. -/
inductive Cut where
  | last (text : String)
  | cons (text : String) (reference : CrossReference) (rest : Cut)

/-- A reference starts at position `i` of a text. -/
def StartsAt (s : String) (i : ℕ) : Prop :=
  ∃ r : CrossReference, r.spelling.toList <+: s.toList.drop i

instance (s : String) (i : ℕ) : Decidable (StartsAt s i) :=
  decidable_of_iff _ begins_iff

namespace Cut

/-- The text that is cut. -/
def source : Cut → String
  | last text => text
  | cons text r rest => text ++ r.spelling ++ rest.source

/-- The text with the text of each reference in the place of the reference. -/
def shown : Cut → String
  | last text => text
  | cons text r rest => text ++ r.text ++ rest.shown

/-- Position `i` of the text is in none of the references. -/
def Outside : Cut → ℕ → Prop
  | last text, i => i < text.length
  | cons text r rest, i =>
    i < text.length ∨ ∃ j, i = text.length + r.spelling.length + j ∧ rest.Outside j

/-- No reference starts outside of those that the text is cut into. -/
def Leftmost (cut : Cut) : Prop :=
  ∀ i, cut.Outside i → ¬ StartsAt cut.source i

end Cut

theorem startsAt_append (s rest : String) (i : ℕ) :
    StartsAt (s ++ rest) (s.length + i) ↔ StartsAt rest i := by
  unfold StartsAt
  rw [String.toList_append, ← String.length_toList, List.drop_length_add_append]

theorem startsAt_spelling_append (r : CrossReference) (rest : String) :
    StartsAt (r.spelling ++ rest) 0 := by
  refine ⟨r, ?_⟩
  rw [String.toList_append, List.drop_zero]
  exact List.prefix_append _ _

namespace Cut

/-- Up to a reference of a cut nothing starts if the cut is leftmost, and what is behind it is
leftmost again. -/
theorem leftmost_cons_iff {text : String} {r : CrossReference} {rest : Cut} :
    (cons text r rest).Leftmost ↔
      (∀ i < text.length, ¬ StartsAt (cons text r rest).source i) ∧ rest.Leftmost := by
  have hbehind : ∀ j, StartsAt (cons text r rest).source (text.length + r.spelling.length + j) ↔
      StartsAt rest.source j := by
    intro j
    rw [source, ← String.length_append, startsAt_append]
  constructor
  · intro h
    refine ⟨fun i hi => h i (.inl hi), fun j hj => ?_⟩
    rw [← hbehind]
    exact h _ (.inr ⟨j, rfl, hj⟩)
  · rintro ⟨htext, hrest⟩ i (hi | ⟨j, rfl, hj⟩)
    · exact htext i hi
    · rw [hbehind]
      exact hrest j hj

instance : (cut : Cut) → Decidable cut.Leftmost
  | last text => inferInstanceAs (Decidable (∀ i < text.length, ¬ StartsAt text i))
  | cons _ _ rest =>
    have : Decidable rest.Leftmost := instDecidableLeftmost rest
    decidable_of_iff _ leftmost_cons_iff.symm

/-- A reference starts behind the first text of a cut. -/
theorem startsAt_source_cons (text : String) (r : CrossReference) (rest : Cut) :
    StartsAt (cons text r rest).source text.length := by
  have h := (startsAt_append text (r.spelling ++ rest.source) 0).2 (startsAt_spelling_append r _)
  rwa [Nat.add_zero, ← String.append_assoc] at h

/-- Every text has a leftmost cut: its first reference, and a leftmost cut of what follows. -/
theorem exists_leftmost (s : String) : ∃ cut : Cut, cut.source = s ∧ cut.Leftmost := by
  by_cases h : ∃ i, StartsAt s i
  · -- cut at the first reference; what is left behind it is shorter
    classical
    obtain ⟨r, rest, hrest⟩ := Nat.find_spec h
    have hs : s = String.ofList (s.toList.take (Nat.find h)) ++ r.spelling ++ String.ofList rest := by
      rw [← String.toList_inj]
      simp [hrest]
    have hlength : rest.length < s.length := by
      have hsum := congrArg List.length hrest
      simp only [List.length_append, List.length_drop, String.length_toList] at hsum
      have hpos := r.length_spelling_pos
      omega
    obtain ⟨cut, hsource, hcut⟩ := exists_leftmost (String.ofList rest)
    have hcons : (cons (String.ofList (s.toList.take (Nat.find h))) r cut).source = s := by
      rw [source, hsource, ← hs]
    refine ⟨_, hcons, leftmost_cons_iff.2 ⟨fun i hi => ?_, hcut⟩⟩
    rw [String.length_ofList, List.length_take] at hi
    rw [hcons]
    exact Nat.find_min h (lt_of_lt_of_le hi (Nat.min_le_left _ _))
  · exact ⟨last s, rfl, fun i _ hi => h ⟨i, hi⟩⟩
termination_by s.length
decreasing_by
  rwa [String.length_ofList]

/-- The text before the first reference of a cut. -/
def first : Cut → String
  | last text => text
  | cons text _ _ => text

/-- In a leftmost cut nothing starts before the first reference. -/
theorem Leftmost.length_first_le {cut : Cut} (h : cut.Leftmost) {i : ℕ}
    (hi : StartsAt cut.source i) : cut.first.length ≤ i := by
  by_contra hlt
  rw [Nat.not_le] at hlt
  cases cut with
  | last text => exact h i hlt hi
  | cons text r rest => exact h i (.inl hlt) hi

theorem length_source_cons (text : String) (r : CrossReference) (rest : Cut) :
    text.length < (cons text r rest).source.length := by
  have hpos := r.length_spelling_pos
  rw [source, String.length_append, String.length_append]
  omega

/-- A leftmost cut that cuts nothing leaves no place for a reference of another cut. -/
theorem Leftmost.source_cons_ne {text : String} (h : (last text).Leftmost) (text' : String)
    (r : CrossReference) (rest : Cut) : (cons text' r rest).source ≠ text := by
  rintro rfl
  have hle := h.length_first_le (startsAt_source_cons text' r rest)
  exact absurd (length_source_cons text' r rest) (Nat.not_lt.2 hle)

/-- Only one cut of a text is leftmost. -/
theorem Leftmost.unique {cut cut' : Cut} (h : cut.Leftmost) (h' : cut'.Leftmost)
    (hsource : cut.source = cut'.source) : cut = cut' := by
  induction cut generalizing cut' with
  | last text =>
    cases cut' with
    | last text' => exact congrArg last hsource
    | cons text' r' rest' => exact absurd hsource.symm (h.source_cons_ne text' r' rest')
  | cons text r rest ih =>
    cases cut' with
    | last text' => exact absurd hsource (h'.source_cons_ne text r rest)
    | cons text' r' rest' =>
      -- neither first text can reach into the first reference of the other cut
      have hle := h.length_first_le (hsource ▸ startsAt_source_cons text' r' rest')
      have hle' := h'.length_first_le (hsource ▸ startsAt_source_cons text r rest)
      have hlength : text.toList.length = text'.toList.length := by
        rw [String.length_toList, String.length_toList]
        exact Nat.le_antisymm hle hle'
      have hchars := congrArg String.toList hsource
      rw [source, source, String.toList_append, String.toList_append, String.toList_append,
        String.toList_append, List.append_assoc, List.append_assoc] at hchars
      obtain ⟨htext, hrefs⟩ := List.append_inj hchars hlength
      obtain ⟨rfl, hrest⟩ := spelling_append_inj hrefs
      rw [String.toList_inj.1 htext, ih (leftmost_cons_iff.1 h).2 (leftmost_cons_iff.1 h').2
        (String.toList_inj.1 hrest)]

end Cut

/-! ## Stripping -/

/-- A character that no reference starts with stays. -/
theorem stripChars_cons {c : Char} {s : List Char}
    (h : ∀ r : CrossReference, ¬ r.spelling.toList <+: c :: s) :
    stripChars (c :: s) = c :: stripChars s := by
  rw [stripChars]
  split
  · next hc =>
    split
    · next text rest hread =>
      obtain ⟨r, -, hr⟩ := exists_of_read? hread
      exact absurd ⟨rest, by rw [hc, hr]⟩ (h r)
    · rfl
  · rfl

/-- Up to the first reference everything stays. -/
theorem stripChars_append {s rest : List Char}
    (h : ∀ i < s.length, ∀ r : CrossReference, ¬ r.spelling.toList <+: (s ++ rest).drop i) :
    stripChars (s ++ rest) = s ++ stripChars rest := by
  induction s with
  | nil => rfl
  | cons c s ih =>
    have hrest : stripChars (s ++ rest) = s ++ stripChars rest :=
      ih fun i hi => h (i + 1) (Nat.succ_lt_succ hi)
    have hstart : ∀ r : CrossReference, ¬ r.spelling.toList <+: c :: (s ++ rest) :=
      h 0 (Nat.succ_pos _)
    rw [List.cons_append, stripChars_cons hstart, hrest]
    rfl

/-- A reference leaves its text. -/
theorem stripChars_spelling (r : CrossReference) (rest : List Char) :
    stripChars (r.spelling.toList ++ rest) = r.text.toList ++ stripChars rest := by
  obtain ⟨tail, htail, hread⟩ := r.read?_spelling rest
  rw [htail, List.cons_append, stripChars, if_pos rfl]
  split
  · next text rest' hread' =>
    obtain ⟨rfl, rfl⟩ := Prod.mk.inj (Option.some.inj (hread.symm.trans hread'))
    rfl
  · next hnone =>
    rw [hnone] at hread
    cases hread

theorem stripChars_source {cut : Cut} (h : cut.Leftmost) :
    stripChars cut.source.toList = cut.shown.toList := by
  induction cut with
  | last text =>
    have hstay : ∀ i < text.toList.length, ∀ r : CrossReference,
        ¬ r.spelling.toList <+: (text.toList ++ []).drop i := by
      intro i hi r hr
      rw [List.append_nil] at hr
      exact h i (by rwa [String.length_toList] at hi) ⟨r, hr⟩
    have hstrip := stripChars_append hstay
    rwa [List.append_nil, stripChars, List.append_nil] at hstrip
  | cons text r rest ih =>
    obtain ⟨htext, hrest⟩ := Cut.leftmost_cons_iff.1 h
    rw [Cut.source, Cut.shown]
    simp only [String.toList_append, List.append_assoc]
    rw [stripChars_append, stripChars_spelling, ih hrest]
    intro i hi r' hr'
    refine htext i (by rwa [String.length_toList] at hi) ⟨r', ?_⟩
    simpa only [Cut.source, String.toList_append, List.append_assoc] using hr'

/-- The leftmost cut of a text shows what stripping makes of it. -/
theorem strip_source {cut : Cut} (h : cut.Leftmost) : strip cut.source = cut.shown := by
  rw [strip, stripChars_source h, String.ofList_toList]

/-- Where a reference starts, it occurs. -/
theorem StartsAt.exists_isInfix {s : String} {i : ℕ} (h : StartsAt s i) :
    ∃ r : CrossReference, r.spelling.toList <:+: s.toList := by
  obtain ⟨r, hr⟩ := h
  exact ⟨r, hr.isInfix.trans (List.drop_suffix i s.toList).isInfix⟩

/-- A text is cut in exactly one way into references and texts that no reference starts in, and
stripping leaves the text of each of these references in its place and everything else as it is. So
nothing happens to a text in which no reference occurs. -/
theorem existsUnique_cut (s : String) :
    (∃! cut : Cut, cut.source = s ∧ cut.Leftmost) ∧
    (∀ cut : Cut, cut.source = s → cut.Leftmost → strip s = cut.shown) ∧
    ((∀ r : CrossReference, ¬ r.spelling.toList <:+: s.toList) → strip s = s) := by
  obtain ⟨cut, hsource, hcut⟩ := Cut.exists_leftmost s
  refine ⟨⟨cut, ⟨hsource, hcut⟩, ?_⟩, ?_, ?_⟩
  · rintro cut' ⟨hsource', hcut'⟩
    exact hcut'.unique hcut (hsource'.trans hsource.symm)
  · rintro cut' rfl hcut'
    exact strip_source hcut'
  · intro hnone
    have hlast : (Cut.last s).Leftmost := by
      intro i _ hi
      obtain ⟨r, hr⟩ := hi.exists_isInfix
      exact hnone r hr
    have hstrip := strip_source hlast
    rwa [Cut.source, Cut.shown] at hstrip

/-- The first bracket is that of a reference, whatever stands between it and the next one; a word
that only begins like `ref` makes no reference. -/
theorem existsUnique_cut_nested :
    let cut : Cut := .cons "a " ⟨"b [c", .ref, "", by decide, by decide, by decide⟩
      (.cons " " ⟨"d", .id, "\u2003x\n[y", by decide, by decide, by decide⟩ (.last " [e](@refx)"))
    cut.source = "a [b [c](@ref) [d](@id\u2003x\n[y) [e](@refx)" ∧ cut.Leftmost ∧
      strip cut.source = "a b [c d [e](@refx)" := by
  intro cut
  have hcut : cut.Leftmost := by decide
  exact ⟨by decide, hcut, (existsUnique_cut cut.source).2.1 cut rfl hcut⟩

/-! ## A single reference -/

/-- Every opening bracket has a closing one behind it. -/
def Closed (s : String) : Prop :=
  ∀ i : ℕ, s.toList[i]? = some '[' → ']' ∈ s.toList.drop (i + 1)

instance (s : String) : Decidable (Closed s) :=
  decidable_of_iff (∀ i < s.toList.length, s.toList[i]? = some '[' → ']' ∈ s.toList.drop (i + 1))
    ⟨fun h i hi => h i (List.getElem?_eq_some_iff.1 hi).1 hi, fun h i _ hi => h i hi⟩

theorem isInfix_spelling (r : CrossReference) : "(@".toList <:+: r.spelling.toList := by
  rw [toList_spelling]
  exact ⟨'[' :: (r.text.toList ++ [']']), r.word.name.toList ++ (r.target.toList ++ [')']), by simp⟩

/-- Two characters before a third, which is none of them, are not cut off by it. -/
theorem pair_isPrefix {a b c : Char} {s rest more : List Char} (ha : c ≠ a) (hb : c ≠ b)
    (h : a :: b :: more = s ++ c :: rest) : [a, b] <+: s := by
  rcases s with _ | ⟨a', _ | ⟨b', s⟩⟩
  · exact absurd (List.head_eq_of_cons_eq h).symm ha
  · exact absurd (List.head_eq_of_cons_eq (List.tail_eq_of_cons_eq h)).symm hb
  · simp only [List.cons_append, List.cons.injEq] at h
    rw [h.1, h.2.1]
    exact ⟨s, rfl⟩

/-- Before an opening bracket no reference starts if the brackets before it are closed, for what is
behind the first closing one would have to be a parenthesis and an at sign. -/
theorem not_startsAt_of_closed {s : String} (hclosed : Closed s) (hs : ¬ "(@".toList <:+: s.toList)
    (rest : String) : ∀ i < s.length, ¬ StartsAt (s ++ "[" ++ rest) i := by
  rintro i hi ⟨r, behind, hr⟩
  rw [← String.length_toList] at hi
  have hdrop : (s ++ "[" ++ rest).toList.drop i
      = s.toList[i] :: (s.toList.drop (i + 1) ++ '[' :: rest.toList) := by
    rw [String.toList_append, String.toList_append, List.append_assoc,
      List.drop_append_of_le_length (Nat.le_of_lt hi), List.drop_eq_getElem_cons hi]
    rfl
  rw [hdrop, toList_spelling, List.cons_append, List.cons.injEq] at hr
  obtain ⟨hopen, htail⟩ := hr
  have hmem : ']' ∈ s.toList.drop (i + 1) :=
    hclosed i (List.getElem?_eq_some_iff.2 ⟨hi, hopen.symm⟩)
  -- the reference's text ends at this bracket, since it holds none itself
  obtain ⟨inside, after, hinside, hfirst⟩ := List.eq_append_cons_of_mem hmem
  rw [hinside] at htail
  simp only [List.append_assoc, List.cons_append] at htail
  obtain ⟨-, hafter⟩ := append_cons_inj r.bracket_not_mem hfirst htail
  have hpair : "(@".toList <+: after := pair_isPrefix (by decide) (by decide) hafter
  have hsuffix : after <:+ s.toList.drop (i + 1) := by
    rw [hinside]
    exact (List.suffix_cons _ _).trans (List.suffix_append _ _)
  exact hs (hpair.isInfix.trans (hsuffix.trans (List.drop_suffix _ _)).isInfix)

/-- Among brackets that are not all closed there is a first one that is not. -/
theorem exists_first_open {s : String} (h : ¬ Closed s) :
    ∃ front back, s = front ++ "[" ++ back ∧ Closed front ∧ ']' ∉ back.toList := by
  unfold Closed at h
  push Not at h
  obtain ⟨i, hi, hback⟩ := h
  obtain ⟨hlt, hget⟩ := List.getElem?_eq_some_iff.1 hi
  have hs : s = String.ofList (s.toList.take i) ++ "[" ++ String.ofList (s.toList.drop (i + 1)) := by
    rw [← String.toList_inj, String.toList_append, String.toList_append, String.toList_ofList,
      String.toList_ofList, String.toList_ofList, ← hget]
    simp
  by_cases hfront : Closed (String.ofList (s.toList.take i))
  · exact ⟨_, _, hs, hfront, by rwa [String.toList_ofList]⟩
  · obtain ⟨front, between, hfront, hclosed, hbetween⟩ := exists_first_open hfront
    refine ⟨front, between ++ "[" ++ String.ofList (s.toList.drop (i + 1)), ?_, hclosed, ?_⟩
    · rw [hfront] at hs
      simpa only [String.append_assoc] using hs
    · simpa [hbetween] using hback
termination_by s.length
decreasing_by
  rw [String.length_ofList, List.length_take, ← String.length_toList]
  omega

/-- Without the middle of a reference there is none. -/
theorem not_startsAt_of_not_isInfix {s : String} (h : ¬ "(@".toList <:+: s.toList) (i : ℕ) :
    ¬ StartsAt s i := by
  intro hi
  obtain ⟨r, hr⟩ := hi.exists_isInfix
  exact h (r.isInfix_spelling.trans hr)

theorem strip_of_closed {before after : String} (r : CrossReference) (hclosed : Closed before)
    (hbefore : ¬ "(@".toList <:+: before.toList) (hafter : ¬ "(@".toList <:+: after.toList) :
    strip (before ++ r.spelling ++ after) = before ++ r.text ++ after := by
  have hsource : (Cut.cons before r (.last after)).source
      = before ++ "[" ++ (r.text ++ "](@" ++ r.word.name ++ r.target ++ ")" ++ after) := by
    simp only [Cut.source, spelling, String.append_assoc]
  have hcut : (Cut.cons before r (.last after)).Leftmost := by
    refine Cut.leftmost_cons_iff.2 ⟨?_, fun i _ => not_startsAt_of_not_isInfix hafter i⟩
    rw [hsource]
    exact not_startsAt_of_closed hclosed hbefore _
  have hstrip := strip_source hcut
  rwa [Cut.source, Cut.shown] at hstrip

/-- The reference that begins at an earlier bracket, with what stands between. -/
def widen (r : CrossReference) (between : String) (h : ']' ∉ between.toList) : CrossReference where
  text := between ++ "[" ++ r.text
  word := r.word
  target := r.target
  bracket_not_mem := by simp [h, r.bracket_not_mem]
  isBlank_head := r.isBlank_head
  paren_not_mem := r.paren_not_mem

theorem spelling_widen (r : CrossReference) {between : String} (h : ']' ∉ between.toList) :
    (r.widen between h).spelling = "[" ++ between ++ r.spelling := by
  simp only [spelling, widen, String.append_assoc]

/-- If a bracket is open, then the reference begins with the first one that is. -/
theorem strip_of_open {front back after : String} (r : CrossReference) (hfront : Closed front)
    (hback : ']' ∉ back.toList) (hbefore : ¬ "(@".toList <:+: (front ++ "[" ++ back).toList)
    (hafter : ¬ "(@".toList <:+: after.toList) :
    strip (front ++ "[" ++ back ++ r.spelling ++ after) = front ++ back ++ "[" ++ r.text ++ after := by
  have hfront' : ¬ "(@".toList <:+: front.toList := by
    intro h
    apply hbefore
    rw [String.toList_append, String.toList_append, List.append_assoc]
    exact h.trans (List.prefix_append _ _).isInfix
  have hstrip := strip_of_closed (r.widen back hback) hfront hfront' hafter
  rw [spelling_widen, widen] at hstrip
  simpa only [String.append_assoc] using hstrip

/-- A text in which one reference stands, and nothing else that could end one, loses the brackets of
the reference if all brackets before it are closed. Otherwise it loses the first bracket that is open
in the place of the reference's own. -/
theorem strip_single (before after : String) (r : CrossReference)
    (hbefore : ¬ "(@".toList <:+: before.toList) (hafter : ¬ "(@".toList <:+: after.toList) :
    (Closed before → strip (before ++ r.spelling ++ after) = before ++ r.text ++ after) ∧
    (∀ front back, before = front ++ "[" ++ back → Closed front → ']' ∉ back.toList →
      strip (before ++ r.spelling ++ after) = front ++ back ++ "[" ++ r.text ++ after) ∧
    (Closed before ∨
      ∃ front back, before = front ++ "[" ++ back ∧ Closed front ∧ ']' ∉ back.toList) := by
  refine ⟨fun hclosed => strip_of_closed r hclosed hbefore hafter, ?_, ?_⟩
  · rintro front back rfl hfront hback
    exact strip_of_open r hfront hback hbefore hafter
  · by_cases hclosed : Closed before
    · exact .inl hclosed
    · exact .inr (exists_first_open hclosed)

/-- A reference behind a closed interval, and the same behind a half-open one. -/
theorem strip_single_interval :
    let r : CrossReference := ⟨"f", .ref, "", by decide, by decide, by decide⟩
    ¬ "(@".toList <:+: "in [0, 1] see ".toList ∧ ¬ "(@".toList <:+: "in [0, 1) see ".toList ∧
      ¬ "(@".toList <:+: ".".toList ∧ Closed "in [0, 1] see " ∧ ¬ Closed "in [0, 1) see " ∧
      r.spelling = "[f](@ref)" ∧
      strip ("in [0, 1] see " ++ r.spelling ++ ".") = "in [0, 1] see " ++ r.text ++ "." ∧
      strip ("in [0, 1) see " ++ r.spelling ++ ".") = "in " ++ "0, 1) see " ++ "[" ++ r.text ++ "." := by
  intro r
  have hclosed : ¬ "(@".toList <:+: "in [0, 1] see ".toList := by simp [List.infix_cons_iff]
  have hopen : ¬ "(@".toList <:+: "in [0, 1) see ".toList := by simp [List.infix_cons_iff]
  have hafter : ¬ "(@".toList <:+: ".".toList := by simp [List.infix_cons_iff]
  exact ⟨hclosed, hopen, hafter, by decide, by decide, by decide,
    (strip_single _ _ r hclosed hafter).1 (by decide),
    (strip_single _ _ r hopen hafter).2.1 "in " "0, 1) see " (by decide) (by decide) (by decide)⟩

/-- Not every reference is reduced to its text. -/
theorem not_forall_strip_eq :
    ¬ ∀ before text after : String, ¬ "(@".toList <:+: before.toList →
      ¬ "(@".toList <:+: after.toList → '[' ∉ text.toList → ']' ∉ text.toList →
        strip (before ++ "[" ++ text ++ "](@ref)" ++ after) = before ++ text ++ after := by
  intro h
  have hclaimed := h "in [0, 1) see " "f" "." (by simp [List.infix_cons_iff])
    (by simp [List.infix_cons_iff]) (by decide) (by decide)
  let cut : Cut := .cons "in " ⟨"0, 1) see [f", .ref, "", by decide, by decide, by decide⟩ (.last ".")
  have hcut : cut.Leftmost := by decide
  have hsource : cut.source = "in [0, 1) see " ++ "[" ++ "f" ++ "](@ref)" ++ "." := by decide
  rw [← hsource, strip_source hcut] at hclaimed
  exact absurd hclaimed (by decide)

end CrossReference

end Weave
