import Weave.Page

/-!
# Reading the edit URL

The block at the top of a page gives the place of the source between double quotes. Whoever reads a
literal there takes a backslash with a backslash or a quote behind it for that character
(`readLiteral?`); what is written escapes the quotes and nothing else. So the place is read back exactly
if no backslash in it has one of these behind it, or the end (`Plain`, `readLiteral?_escape_iff`).
-/

namespace Weave.Page

/-- Reads a literal behind its opening quote: its value, and what stands behind the closing quote. A
backslash that is followed by a backslash or a quote stands for that character. -/
def readLiteral? : List Char → Option (List Char × List Char)
  | [] => none
  | '"' :: behind => some ([], behind)
  | '\\' :: '\\' :: rest => (readLiteral? rest).map fun (value, behind) => ('\\' :: value, behind)
  | '\\' :: '"' :: rest => (readLiteral? rest).map fun (value, behind) => ('"' :: value, behind)
  | c :: rest => (readLiteral? rest).map fun (value, behind) => (c :: value, behind)

/-- Every backslash is followed by a character that is neither a backslash nor a quote. -/
def Plain (s : List Char) : Prop :=
  ∀ front back, s = front ++ '\\' :: back → ∃ c ∈ back.head?, c ≠ '\\' ∧ c ≠ '"'

/-- The characters of a literal: a backslash is put before each quote. -/
def escape (s : List Char) : List Char :=
  s.flatMap fun c => if c = '"' then ['\\', '"'] else [c]

variable {s value behind : List Char} {c : Char}

theorem toList_escapeQuotes (url : String) : (escapeQuotes url).toList = escape url.toList :=
  String.toList_ofList

/-! ## One character after the other -/

theorem escape_quote (s : List Char) : escape ('"' :: s) = '\\' :: '"' :: escape s := rfl

theorem escape_cons (h : c ≠ '"') (s : List Char) : escape (c :: s) = c :: escape s := by
  rw [escape, List.flatMap_cons, if_neg h]
  rfl

theorem map_cons_eq_some_iff {read? : Option (List Char × List Char)} :
    (read?.map fun (value, behind) => (c :: value, behind)) = some (value, behind) ↔
      ∃ more, read? = some (more, behind) ∧ value = c :: more := by
  rw [Option.map_eq_some_iff]
  constructor
  · rintro ⟨⟨more, _⟩, hread, heq⟩
    cases heq
    exact ⟨more, hread, rfl⟩
  · rintro ⟨more, hread, rfl⟩
    exact ⟨_, hread, rfl⟩

/-- A character that does not end the literal stands for itself, unless it is a backslash that escapes
the next one. -/
theorem readLiteral?_cons {rest : List Char} (hquote : c ≠ '"')
    (hescape : c = '\\' → ∀ d ∈ rest.head?, d ≠ '\\' ∧ d ≠ '"') :
    readLiteral? (c :: rest)
      = (readLiteral? rest).map fun (value, behind) => (c :: value, behind) := by
  rw [readLiteral?]
  · exact hquote
  · rintro more hc rfl
    exact (hescape hc '\\' rfl).1 rfl
  · rintro more hc rfl
    exact (hescape hc '"' rfl).2 rfl

theorem plain_nil : Plain [] := by
  intro front back h
  exact absurd h.symm (List.append_ne_nil_of_right_ne_nil _ (List.cons_ne_nil _ _))

theorem plain_cons_iff :
    Plain (c :: s) ↔ (c = '\\' → ∃ d ∈ s.head?, d ≠ '\\' ∧ d ≠ '"') ∧ Plain s := by
  constructor
  · intro h
    refine ⟨?_, fun front back hs => h (c :: front) back (congrArg (c :: ·) hs)⟩
    rintro rfl
    exact h [] s rfl
  · intro ⟨hfirst, hrest⟩ front back hs
    cases front with
    | nil =>
      obtain ⟨rfl, rfl⟩ := List.cons.inj hs
      exact hfirst rfl
    | cons d front => exact hrest front back (List.cons.inj hs).2

/-! ## How long a literal is -/

/-- Each quote takes one character more. -/
theorem length_escape (s : List Char) : (escape s).length = s.length + s.count '"' := by
  induction s with
  | nil => rfl
  | cons c s ih =>
    by_cases hc : c = '"'
    · subst hc
      rw [escape_quote, List.length_cons, List.length_cons, ih, List.length_cons, List.count_cons_self]
      omega
    · rw [escape_cons hc, List.length_cons, ih, List.length_cons, List.count_cons_of_ne hc]
      omega

/-- A literal is as long as its value with a backslash for each quote in it, or longer. -/
theorem length_le_of_readLiteral? (h : readLiteral? s = some (value, behind)) :
    value.length + value.count '"' + 1 + behind.length ≤ s.length := by
  induction s using readLiteral?.induct generalizing value with
  | case1 => cases h
  | case2 behind =>
    cases h
    show 0 + 0 + 1 + behind.length ≤ behind.length + 1
    omega
  | case3 rest ih =>
    obtain ⟨more, hread, rfl⟩ := map_cons_eq_some_iff.1 h
    have hmore := ih hread
    have hcount : ('\\' :: more).count '"' = more.count '"' := List.count_cons_of_ne (by decide)
    simp only [List.length_cons]
    omega
  | case4 rest ih =>
    obtain ⟨more, hread, rfl⟩ := map_cons_eq_some_iff.1 h
    have hmore := ih hread
    have hcount : ('"' :: more).count '"' = more.count '"' + 1 := List.count_cons_self
    simp only [List.length_cons]
    omega
  | case5 c rest hquote hbackslash hescaped ih =>
    have hescape : c = '\\' → ∀ d ∈ rest.head?, d ≠ '\\' ∧ d ≠ '"' := by
      intro hc d hd
      obtain ⟨more, rfl⟩ := List.head?_eq_some_iff.1 hd
      constructor
      · rintro rfl
        exact hbackslash more hc rfl
      · rintro rfl
        exact hescaped more hc rfl
    rw [readLiteral?_cons hquote hescape] at h
    obtain ⟨more, hread, rfl⟩ := map_cons_eq_some_iff.1 h
    have hmore := ih hread
    have hcount : (c :: more).count '"' = more.count '"' := List.count_cons_of_ne hquote
    simp only [List.length_cons]
    omega

/-- Behind a backslash that escapes a backslash the rest is too short for the text. -/
theorem readLiteral?_escape_ne (s behind : List Char) :
    readLiteral? (escape s ++ '"' :: behind) ≠ some ('\\' :: s, behind) := by
  intro h
  have hlength := length_le_of_readLiteral? h
  have hcount : ('\\' :: s).count '"' = s.count '"' := List.count_cons_of_ne (by decide)
  rw [List.length_append, length_escape, List.length_cons, List.length_cons] at hlength
  omega

/-! ## The whole literal -/

/-- A backslash that escapes what stands behind it is lost. -/
theorem readLiteral?_backslash_ne (h : ¬ ∃ c ∈ s.head?, c ≠ '\\' ∧ c ≠ '"') (behind : List Char) :
    readLiteral? ('\\' :: (escape s ++ '"' :: behind)) ≠ some ('\\' :: s, behind) := by
  intro hread
  cases s with
  | nil =>
    -- the quote at the end of the literal belongs to its value
    obtain ⟨more, -, heq⟩ := map_cons_eq_some_iff.1 hread
    cases heq
  | cons c s =>
    by_cases hquote : c = '"'
    · -- the backslash before the quote is escaped, and the quote ends the literal
      subst hquote
      obtain ⟨more, hmore, heq⟩ := map_cons_eq_some_iff.1 hread
      cases heq
      cases hmore
    · have hbackslash : c = '\\' := Decidable.of_not_not fun hne => h ⟨c, rfl, hne, hquote⟩
      subst hbackslash
      rw [escape_cons hquote] at hread
      obtain ⟨more, hmore, heq⟩ := map_cons_eq_some_iff.1 hread
      obtain ⟨-, rfl⟩ := List.cons.inj heq
      exact readLiteral?_escape_ne s behind hmore

/-- What has been escaped is read back exactly if it is plain. -/
theorem readLiteral?_escape_iff (s behind : List Char) :
    readLiteral? (escape s ++ '"' :: behind) = some (s, behind) ↔ Plain s := by
  induction s with
  | nil => exact iff_of_true rfl plain_nil
  | cons c s ih =>
    by_cases hquote : c = '"'
    · subst hquote
      have hread : readLiteral? (escape ('"' :: s) ++ '"' :: behind)
          = (readLiteral? (escape s ++ '"' :: behind)).map fun (value, behind) =>
              ('"' :: value, behind) := rfl
      rw [hread, map_cons_eq_some_iff, plain_cons_iff, ← ih]
      simp
    rw [escape_cons hquote, List.cons_append, plain_cons_iff, ← ih]
    by_cases hescape : c = '\\' → ∃ d ∈ s.head?, d ≠ '\\' ∧ d ≠ '"'
    · have hhead : c = '\\' → ∀ d ∈ (escape s ++ '"' :: behind).head?, d ≠ '\\' ∧ d ≠ '"' := by
        intro hc d hd
        obtain ⟨e, he, hne, hnequote⟩ := hescape hc
        obtain ⟨rest, rfl⟩ := List.head?_eq_some_iff.1 he
        rw [escape_cons hnequote] at hd
        cases hd
        exact ⟨hne, hnequote⟩
      rw [readLiteral?_cons hquote hhead, map_cons_eq_some_iff, and_iff_right hescape]
      simp
    · obtain ⟨rfl, hlost⟩ := Classical.not_imp.1 hescape
      refine iff_of_false ?_ fun h => hescape h.1
      exact readLiteral?_backslash_ne hlost behind

/-- Whether a text is plain is told by reading it back. -/
instance : DecidablePred Plain :=
  fun s => decidable_of_iff _ (readLiteral?_escape_iff s [])

/-! ## The block at the top of a page -/

/-- Escaping brings no newlines into a URL. -/
theorem newline_not_mem_escapeQuotes {url : String} (h : '\n' ∉ url.toList) :
    '\n' ∉ (escapeQuotes url).toList := by
  rw [toList_escapeQuotes, escape]
  intro hmem
  obtain ⟨c, hc, hnewline⟩ := List.mem_flatMap.1 hmem
  split at hnewline
  · simp at hnewline
  · exact h (List.mem_singleton.1 hnewline ▸ hc)

/-- A page for Documenter begins with the URL, in quotes on a line of its own. -/
theorem exists_render_eq {options : Options} {url : String} (hdocumenter : options.documenter = true)
    (hurl : options.editUrl? = some url) (chunks : List Chunk) :
    ∃ behind, render options chunks
      = "```@meta\nEditURL = \"" ++ (escapeQuotes url ++ "\"\n" ++ behind) := by
  refine ⟨"```\n\n" ++ String.join (chunks.map (renderChunk options.fence)), ?_⟩
  have hpage : render options chunks
      = metaBlock url ++ String.join (chunks.map (renderChunk options.fence)) := by
    rw [render, hdocumenter, hurl]
  calc render options chunks
      = metaBlock url ++ String.join (chunks.map (renderChunk options.fence)) := hpage
    _ = "```@meta\nEditURL = \"" ++ escapeQuotes url ++ ("\"\n" ++ "```\n\n")
          ++ String.join (chunks.map (renderChunk options.fence)) := rfl
    _ = "```@meta\nEditURL = \"" ++ (escapeQuotes url ++ "\"\n"
          ++ ("```\n\n" ++ String.join (chunks.map (renderChunk options.fence)))) := by
        simp only [String.append_assoc]

theorem readLiteral?_escapeQuotes_iff (url behind : String) :
    readLiteral? (escapeQuotes url ++ "\"\n" ++ behind).toList
        = some (url.toList, ("\n" ++ behind).toList) ↔ Plain url.toList := by
  have hliteral : (escapeQuotes url ++ "\"\n" ++ behind).toList
      = escape url.toList ++ '"' :: ("\n" ++ behind).toList := by
    have hquote : "\"\n".toList = '"' :: "\n".toList := rfl
    rw [String.append_assoc, String.toList_append, toList_escapeQuotes, String.toList_append, hquote,
      String.toList_append]
    rfl
  rw [hliteral]
  exact readLiteral?_escape_iff url.toList ("\n" ++ behind).toList

/-- The place of the source stands in one line of the block, up to the last quote of it. Reading the
literal there ends at this quote and gives the place exactly if the place is plain. -/
theorem readLiteral?_render_iff (options : Options) (chunks : List Chunk) {url : String}
    (hdocumenter : options.documenter = true) (hurl : options.editUrl? = some url)
    (hnewline : '\n' ∉ url.toList) :
    ∃ literal behind, '\n' ∉ literal.toList ∧
      render options chunks = "```@meta\nEditURL = \"" ++ (literal ++ "\"\n" ++ behind) ∧
      (readLiteral? (literal ++ "\"\n" ++ behind).toList
          = some (url.toList, ("\n" ++ behind).toList) ↔ Plain url.toList) := by
  obtain ⟨behind, hpage⟩ := exists_render_eq hdocumenter hurl chunks
  exact ⟨escapeQuotes url, behind, newline_not_mem_escapeQuotes hnewline, hpage,
    readLiteral?_escapeQuotes_iff url behind⟩

/-- The options of a page whose source lies here. -/
def optionsAt (url : String) : Options :=
  { Options.ofSettings {} "ex" with editUrl? := some url }

/-- A place with a backslash and two quotes. -/
theorem readLiteral?_render_iff_quotes :
    ∃ literal behind, '\n' ∉ literal.toList ∧
      render (optionsAt "docs\\my \"notes\".jl") [⟨.markdown, ["Hi"]⟩]
        = "```@meta\nEditURL = \"" ++ (literal ++ "\"\n" ++ behind) ∧
      readLiteral? (literal ++ "\"\n" ++ behind).toList
        = some ("docs\\my \"notes\".jl".toList, ("\n" ++ behind).toList) := by
  obtain ⟨literal, behind, hnewline, hpage, hread⟩ :=
    readLiteral?_render_iff (optionsAt "docs\\my \"notes\".jl") [⟨.markdown, ["Hi"]⟩] rfl rfl (by decide)
  exact ⟨literal, behind, hnewline, hpage, hread.2 (by decide)⟩

/-- Not every place is read back: where it ends with a backslash, the literal does not end with it. -/
theorem not_forall_readLiteral?_render :
    ¬ ∀ (options : Options) (chunks : List Chunk) (url : String), options.documenter = true →
      options.editUrl? = some url → '\n' ∉ url.toList →
      ∃ literal behind, '\n' ∉ literal.toList ∧
        render options chunks = "```@meta\nEditURL = \"" ++ (literal ++ "\"\n" ++ behind) ∧
        readLiteral? (literal ++ "\"\n" ++ behind).toList
          = some (url.toList, ("\n" ++ behind).toList) := by
  intro h
  obtain ⟨literal, behind, -, hpage, hread⟩ :=
    h (optionsAt "a\\") [⟨.markdown, ["Hi"]⟩] "a\\" rfl rfl (by decide)
  have hrest : literal ++ "\"\n" ++ behind = "a\\\"\n```\n\nHi\n\n" := by
    have hrender : render (optionsAt "a\\") [⟨.markdown, ["Hi"]⟩]
        = "```@meta\nEditURL = \"" ++ "a\\\"\n```\n\nHi\n\n" := by decide
    exact (String.append_right_inj _).1 (hpage.symm.trans hrender)
  have hnone : readLiteral? "a\\\"\n```\n\nHi\n\n".toList = none := by decide
  rw [hrest, hnone] at hread
  cases hread

end Weave.Page
