import Weave.CommandLine.Reader
import Weave.Proofs.Error.Results

/-!
# What is read fits the grammar

A command line that is read fits its grammar (`fits_of_read`): the names of its commands lead down the
grammar, and what was given on each level is what the command of this level accepts, with as many values
as the argument has, each of them accepted, and once only where it may be given once (`Given.Fits`).
The reading keeps this of what it has so far (`Progress.Fits`), word by word.
-/

namespace Weave.CommandLine

/-- What a command accepts. -/
def Grammar.arguments (grammar : Grammar) : List Argument :=
  grammar.options ++ grammar.positionals

/-- The names of arguments, and how they are given. -/
def Argument.table (arguments : List Argument) : List (String × Use) :=
  arguments.map fun argument => (argument.name, argument.use)

/-- An argument can be given these values. -/
structure Argument.Takes (argument : Argument) (values : List String) : Prop where
  length : values.length = argument.use.values
  accept : ∀ value ∈ values, argument.accept value = .ok ()

/-! ## One level of commands -/

namespace Given

/-- The values of an argument each time it was given. -/
def valuesOf (given : Given) (name : String) : List (List String) :=
  (given.filter (·.1 = name)).map (·.2)

/-- What was given is, one after the other, something that is accepted. -/
inductive Fits (arguments : List Argument) : Given → Prop
  | nil : Fits arguments []
  | snoc {given : Given} {argument : Argument} {values : List String} (hgiven : Fits arguments given)
      (hargument : argument ∈ arguments) (hvalues : argument.Takes values)
      (honce : argument.use.once = true → given.valuesOf argument.name = []) :
      Fits arguments (given ++ [(argument.name, values)])

variable {arguments : List Argument} {given given' : Given} {argument : Argument}
  {name : String} {values : List String}

/-- What was given later counts behind what was given before. -/
theorem valuesOf_append (given more : Given) (name : String) :
    Given.valuesOf (given ++ more) name = given.valuesOf name ++ Given.valuesOf more name := by
  unfold valuesOf
  rw [List.filter_append, List.map_append]

theorem valuesOf_single (values : List String) :
    Given.valuesOf [(name, values)] name = [values] := by
  simp [valuesOf]

theorem valuesOf_single_of_ne {other : String} (h : other ≠ name) (values : List String) :
    Given.valuesOf [(other, values)] name = [] := by
  simp [valuesOf, h]

/-- An argument that was never given cannot be found, and the other way round. -/
theorem valuesOf_eq_nil_iff_lookup : given.valuesOf name = [] ↔ given.lookup name = none := by
  rw [List.lookup_eq_none_iff, valuesOf, List.map_eq_nil_iff, List.filter_eq_nil_iff]
  have hentry (entry : String × List String) :
      ¬decide (entry.1 = name) = true ↔ (name != entry.1) = true := by
    rw [decide_eq_true_iff, bne_iff_ne, ne_comm]
  simp only [hentry]

/-- An argument that can be added fits, with its values. -/
theorem Fits.add (h : Fits arguments given) (hargument : argument ∈ arguments)
    (hadd : given.add argument values = .ok given') : Fits arguments given' := by
  unfold Given.add at hadd
  split at hadd
  · cases hadd
  next hlength =>
  split at hadd
  · cases hadd
  next honce =>
  obtain ⟨_, haccept, hgiven⟩ := Except.bind_eq_ok_iff.1 hadd
  cases hgiven
  have htakes : argument.Takes values := by
    refine ⟨Decidable.not_not.1 hlength, fun value hvalue => ?_⟩
    exact Except.mapError_eq_ok_iff.1 (Except.forM_eq_ok_iff.1 haccept value hvalue)
  refine h.snoc hargument htakes fun honly => ?_
  -- a second time would have been refused
  rw [valuesOf_eq_nil_iff_lookup, ← Option.not_isSome_iff_eq_none]
  intro hgiven
  exact honce (by rw [honly, hgiven]; rfl)

/-- An argument that is not accepted was not given. -/
theorem Fits.valuesOf_eq_nil (h : Fits arguments given)
    (hname : ∀ entry ∈ Argument.table arguments, entry.1 ≠ name) : given.valuesOf name = [] := by
  rw [Argument.table, List.forall_mem_map] at hname
  induction h with
  | nil => rfl
  | @snoc given argument values hgiven hargument hvalues honce ih =>
    rw [valuesOf_append, ih, valuesOf_single_of_ne (hname argument hargument), List.nil_append]

/-- Each time an argument was given, it was given as many values as it has. -/
theorem Fits.length_of_mem_valuesOf {use : Use} (h : Fits arguments given)
    (huse : ∀ entry ∈ Argument.table arguments, entry.1 = name → entry.2 = use)
    (hvalues : values ∈ given.valuesOf name) : values.length = use.values := by
  rw [Argument.table, List.forall_mem_map] at huse
  induction h with
  | nil => cases hvalues
  | @snoc given argument values' hgiven hargument htakes honce ih =>
    rw [valuesOf_append, List.mem_append] at hvalues
    obtain hvalues | hvalues := hvalues
    · exact ih hvalues
    by_cases hname : argument.name = name
    · have hargument : argument.use = use := huse argument hargument hname
      subst hname
      rw [valuesOf_single, List.mem_singleton] at hvalues
      rw [hvalues, htakes.length, hargument]
    · rw [valuesOf_single_of_ne hname] at hvalues
      cases hvalues

/-- What has one value was not given, or once with this value. -/
theorem Fits.valuesOf_of_single (h : Fits arguments given)
    (huse : ∀ entry ∈ Argument.table arguments, entry.1 = name → entry.2 = .single) :
    given.valuesOf name = [] ∨ ∃ value, given.valuesOf name = [[value]] := by
  rw [Argument.table, List.forall_mem_map] at huse
  induction h with
  | nil => exact Or.inl rfl
  | @snoc given argument values hgiven hargument htakes honce ih =>
    rw [valuesOf_append]
    by_cases hname : argument.name = name
    · have hsingle : argument.use = .single := huse argument hargument hname
      obtain ⟨value, rfl⟩ : ∃ value, values = [value] := by
        rw [← List.length_eq_one_iff, htakes.length, hsingle]
        rfl
      subst hname
      rw [honce (by rw [hsingle]; rfl), valuesOf_single]
      exact Or.inr ⟨value, rfl⟩
    · rw [valuesOf_single_of_ne hname, List.append_nil]
      exact ih

end Given

/-! ## Between two words -/

namespace Progress

/-- What is known between two words fits the grammar so far. -/
structure Fits (grammar : Grammar) (p : Progress) : Prop where
  given : p.given.Fits grammar.arguments
  pending : ∀ argument values, p.pending? = some (argument, values) → argument ∈ grammar.arguments

variable {grammar : Grammar} {p p' : Progress} {argument : Argument} {word : String}

/-- Before the first word nothing is known, and it fits. -/
theorem fits_empty (grammar : Grammar) : ({} : Progress).Fits grammar where
  given := .nil
  pending := by
    intro argument values h
    cases h

theorem mem_arguments_of_option (h : argument ∈ grammar.options) : argument ∈ grammar.arguments :=
  List.mem_append_left _ h

theorem mem_arguments_of_positional (h : argument ∈ grammar.positionals) :
    argument ∈ grammar.arguments :=
  List.mem_append_right _ h

/-- The argument that is pending is checked before it counts as given. -/
theorem Fits.settle (h : p.Fits grammar) (hsettle : p.settle = .ok p') : p'.Fits grammar := by
  unfold Progress.settle at hsettle
  split at hsettle
  · cases hsettle
    exact h
  next argument values hpending =>
  obtain ⟨given, hadd, hp'⟩ := Except.bind_eq_ok_iff.1 hsettle
  cases hp'
  refine ⟨h.given.add (h.pending argument values hpending) hadd, ?_⟩
  intro _ _ hnone
  cases hnone

theorem Fits.complete {values : List String} (h : p.Fits grammar)
    (hargument : argument ∈ grammar.arguments) (hcomplete : p.complete argument values = .ok p') :
    p'.Fits grammar := by
  obtain ⟨settled, hsettle, hrest⟩ := Except.bind_eq_ok_iff.1 hcomplete
  obtain ⟨given, hadd, hrest⟩ := Except.bind_eq_ok_iff.1 hrest
  have hsettled := h.settle hsettle
  split at hrest
  · cases hrest
  · cases hrest
    exact ⟨hsettled.given.add hargument hadd, hsettled.pending⟩

/-- An option takes the value that is attached to it, or waits for those to come. -/
theorem Fits.takeOption {attached? : Option String} (h : p.Fits grammar)
    (hargument : argument ∈ grammar.arguments) (htake : p.takeOption argument attached? = .ok p') :
    p'.Fits grammar := by
  unfold Progress.takeOption at htake
  split at htake
  -- a value stands in the same word, else none is needed, else it is what the next words give
  · split at htake
    · cases htake
    · exact h.complete hargument htake
  · split at htake
    · exact h.complete hargument htake
    obtain ⟨settled, hsettle, hrest⟩ := Except.bind_eq_ok_iff.1 htake
    cases hrest
    refine ⟨(h.settle hsettle).given, ?_⟩
    intro _ _ hpending
    cases hpending
    exact hargument

/-- A long option is one of those that the grammar has. -/
theorem Fits.takeLong {option : List Char} (h : p.Fits grammar)
    (htake : p.takeLong grammar.options option = .ok p') : p'.Fits grammar := by
  unfold Progress.takeLong at htake
  cases hfind : grammar.options.find? (·.name = String.ofList (option.takeWhile (· != '='))) with
  | none =>
    simp only [hfind] at htake
    cases htake
  | some argument =>
    simp only [hfind] at htake
    exact h.takeOption (mem_arguments_of_option (List.mem_of_find?_eq_some hfind)) htake

theorem Fits.takeShort {letters : List Char} (h : p.Fits grammar)
    (htake : p.takeShort grammar.options letters = .ok p') : p'.Fits grammar := by
  induction letters generalizing p with
  | nil =>
    cases htake
    exact h
  | cons c rest ih =>
    unfold Progress.takeShort at htake
    split at htake
    · cases htake
    next argument hfind =>
    have hargument := mem_arguments_of_option (List.mem_of_find?_eq_some hfind)
    split at htake
    · obtain ⟨completed, hcomplete, hrest⟩ := Except.bind_eq_ok_iff.1 htake
      exact ih (h.complete hargument hcomplete) hrest
    · split at htake
      · exact h.takeOption hargument htake
      · exact h.takeOption hargument htake
      · exact h.takeOption hargument htake

/-- A value goes to the option that waits for it. -/
theorem Fits.takeValue (h : p.Fits grammar) (word : String) : (p.takeValue word).Fits grammar := by
  unfold Progress.takeValue
  split
  · exact h
  next argument values hpending =>
  refine ⟨h.given, ?_⟩
  intro _ _ hnext
  cases hnext
  exact h.pending argument values hpending

/-- A word that is no option goes to the next positional argument. -/
theorem Fits.takePositional (h : p.Fits grammar)
    (htake : p.takePositional grammar.positionals word = .ok p') : p'.Fits grammar := by
  unfold Progress.takePositional at htake
  split at htake
  · cases htake
  next argument hposition =>
  obtain ⟨settled, hsettle, hrest⟩ := Except.bind_eq_ok_iff.1 htake
  cases hrest
  refine ⟨(h.settle hsettle).given, ?_⟩
  intro _ _ hpending
  cases hpending
  exact mem_arguments_of_positional (List.mem_of_getElem? hposition)

/-- A word that names no command keeps what is known fitting. -/
theorem Fits.take (h : p.Fits grammar) (htake : p.take grammar word = .ok p') :
    p'.Fits grammar := by
  unfold Progress.take at htake
  split at htake
  · exact h.takePositional htake
  split at htake
  · cases htake
    exact ⟨h.given, h.pending⟩
  · exact h.takeLong htake
  · exact h.takeShort htake
  · split at htake
    · cases htake
      exact h.takeValue word
    · exact h.takePositional htake

end Progress

/-! ## Whole command lines -/

/-- What was given on one level of commands fits, and what is required was given. -/
structure Given.Completes (grammar : Grammar) (given : Given) : Prop where
  fits : given.Fits grammar.arguments
  required : ∀ argument ∈ grammar.positionals, argument.required = true →
    given.valuesOf argument.name ≠ []

/-- What was found leads down a grammar and fits it on each level. -/
inductive Matches.Fits : Grammar → Matches → Prop
  | innermost {grammar : Grammar} {given : Given} (hgiven : given.Completes grammar)
      (hcommands : grammar.commands = []) : Fits grammar { levels := [given] }
  | outer {grammar inner : Grammar} {given : Given} {name : String} {found : Matches}
      (hgiven : given.Completes grammar) (hinner : grammar.command? name = some inner)
      (hname : name ≠ Grammar.helpCommand) (hfound : found.Fits inner) :
      Fits grammar ⟨name :: found.commands, given :: found.levels⟩

/-- At the end everything that is required has been given. -/
theorem Progress.Fits.finish {grammar : Grammar} {p : Progress} {given : Given}
    (h : p.Fits grammar) (hfinish : p.finish grammar = .ok given) : given.Completes grammar := by
  obtain ⟨settled, hsettle, hrest⟩ := Except.bind_eq_ok_iff.1 hfinish
  obtain ⟨_, -, hrest⟩ := Except.bind_eq_ok_iff.1 hrest
  split at hrest
  · cases hrest
  next hrequired =>
  cases hrest
  refine ⟨(h.settle hsettle).given, ?_⟩
  intro argument hargument honly hnil
  rw [Given.valuesOf_eq_nil_iff_lookup] at hnil
  exact hrequired (List.any_eq_true.2 ⟨argument, hargument, by simp [honly, hnil]⟩)

/-- What is read from words on fits the grammar, if what was read before them does. -/
theorem fits_of_readFrom {grammar : Grammar} {p : Progress} {words : List String} {found : Matches}
    (h : p.Fits grammar) (hread : readFrom grammar p words = .ok found) : found.Fits grammar := by
  induction words generalizing grammar p found with
  | nil =>
    obtain ⟨given, hfinish, hrest⟩ := Except.bind_eq_ok_iff.1 hread
    split at hrest
    · next hcommands =>
      cases hrest
      exact .innermost (h.finish hfinish) (List.isEmpty_iff.1 hcommands)
    · cases hrest
  | cons word rest ih =>
    unfold readFrom at hread
    split at hread
    · next inner hinner =>
      -- the name of a command: the levels from there on are read by themselves
      split at hread
      · cases hread
      next hname =>
      obtain ⟨below, hbelow, hrest⟩ := Except.bind_eq_ok_iff.1 hread
      obtain ⟨given, hfinish, hrest⟩ := Except.bind_eq_ok_iff.1 hrest
      cases hrest
      have hcommand : grammar.command? word = some inner := by
        split at hinner
        · cases hinner
        · exact hinner
      exact .outer (h.finish hfinish) hcommand hname (ih (Progress.fits_empty inner) hbelow)
    · obtain ⟨next, htake, hrest⟩ := Except.bind_eq_ok_iff.1 hread
      exact ih (h.take htake) hrest

theorem Matches.all_eq_flatMap (found : Matches) (name : String) :
    found.all name = found.levels.flatMap (·.valuesOf name) := by
  rw [Matches.all, ← List.flatMap_id, List.filter_flatMap, List.map_flatMap]
  rfl

theorem Matches.value?_of_all_nil {found : Matches} {name : String} (h : found.all name = []) :
    found.value? name = none := by
  rw [Matches.value?, h]
  rfl

theorem Matches.value?_of_all_single {found : Matches} {name value : String}
    (h : found.all name = [[value]]) : found.value? name = some value := by
  rw [Matches.value?, h]
  rfl

/-- What is found in a command line fits the grammar. -/
theorem fits_of_read {grammar : Grammar} {words : List String} {found : Matches}
    (h : read grammar words = .ok found) : found.Fits grammar :=
  fits_of_readFrom (Progress.fits_empty grammar) h

end Weave.CommandLine
