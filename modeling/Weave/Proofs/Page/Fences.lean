import Weave.Document
import Weave.Proofs.Chunk.Printer
import Weave.Proofs.Text.Rows
import Weave.Proofs.Text.Stops

/-!
# Code between fences

Who knows the fences of a page can read its code off it: a block begins behind a row that is the opening
fence and ends before the next row that is the closing one (`Page.blocks`). The fences are the same
for all chunks, whatever these hold. So the blocks are the chunks of code exactly if no line of a chunk
is taken for a fence (`Page.Separable`, `blocks_render_eq_iff`).
-/

namespace Weave

open Text

namespace Page

/-! ## Reading blocks -/

/-- The blocks that are found in rows. Within a block, the rows of it that have been read are known. -/
def blocksFrom (fence : Fence) : (block? : Option (List String)) → List String → List (List String)
  | _, [] => []
  | none, row :: rest =>
    if row = fence.opening then blocksFrom fence (some []) rest else blocksFrom fence none rest
  | some block, row :: rest =>
    if row = fence.closing then block :: blocksFrom fence none rest
    else blocksFrom fence (some (block ++ [row])) rest

/-- The blocks of a page, read row by row. -/
def blocks (fence : Fence) (page : String) : List (List String) :=
  blocksFrom fence none (rows page)

section Reading

variable {fence : Fence} {front body rest : List String}

theorem blocksFrom_none_append (h : fence.opening ∉ front) (rest : List String) :
    blocksFrom fence none (front ++ rest) = blocksFrom fence none rest := by
  induction front with
  | nil => rfl
  | cons row front ih =>
    have hrow : row ≠ fence.opening := fun heq => h (heq ▸ List.mem_cons_self)
    rw [List.cons_append, blocksFrom, if_neg hrow, ih fun hmem => h (List.mem_cons_of_mem row hmem)]

theorem blocksFrom_some_append (h : fence.closing ∉ body) (block rest : List String) :
    blocksFrom fence (some block) (body ++ rest) = blocksFrom fence (some (block ++ body)) rest := by
  induction body generalizing block with
  | nil => rw [List.nil_append, List.append_nil]
  | cons row body ih =>
    have hrow : row ≠ fence.closing := fun heq => h (heq ▸ List.mem_cons_self)
    rw [List.cons_append, blocksFrom, if_neg hrow, ih fun hmem => h (List.mem_cons_of_mem row hmem),
      List.append_assoc, List.singleton_append]

/-- A block ends at the first closing fence. -/
theorem blocksFrom_some_append_closing (h : fence.closing ∉ body) (block rest : List String) :
    blocksFrom fence (some block) (body ++ fence.closing :: rest)
      = (block ++ body) :: blocksFrom fence none rest := by
  rw [blocksFrom_some_append h, blocksFrom, if_pos rfl]

theorem blocksFrom_none_append_opening (h : fence.opening ∉ front) (rest : List String) :
    blocksFrom fence none (front ++ fence.opening :: rest) = blocksFrom fence (some []) rest := by
  rw [blocksFrom_none_append h, blocksFrom, if_pos rfl]

theorem blocksFrom_some_of_not_mem (h : fence.closing ∉ rest) (block : List String) :
    blocksFrom fence (some block) rest = [] := by
  have hread := blocksFrom_some_append h block []
  rwa [List.append_nil, blocksFrom] at hread

/-- Without an opening fence there are no blocks. -/
theorem blocksFrom_none_of_not_mem (h : fence.opening ∉ rest) : blocksFrom fence none rest = [] := by
  have hread := blocksFrom_none_append h []
  rwa [List.append_nil, blocksFrom] at hread

/-! ## How many blocks are found -/

variable (fence)

theorem length_blocksFrom_some_congr (block block' rest : List String) :
    (blocksFrom fence (some block) rest).length = (blocksFrom fence (some block') rest).length := by
  induction rest generalizing block block' with
  | nil => rfl
  | cons row rest ih =>
    unfold blocksFrom
    split
    · rw [List.length_cons, List.length_cons]
    · exact ih _ _

/-- Within a block as many blocks are found as outside, or one more. -/
theorem length_blocksFrom_some (block rest : List String) :
    (blocksFrom fence none rest).length ≤ (blocksFrom fence (some block) rest).length ∧
      (blocksFrom fence (some block) rest).length ≤ (blocksFrom fence none rest).length + 1 := by
  induction rest generalizing block with
  | nil => exact ⟨Nat.le_refl 0, Nat.zero_le 1⟩
  | cons row rest ih =>
    have hbegun := ih []
    have hgone := length_blocksFrom_some_congr fence (block ++ [row]) [] rest
    unfold blocksFrom
    -- a row may be one of the two fences, both or none
    split
    · split
      · rw [List.length_cons]
        omega
      · omega
    · split
      · rw [List.length_cons]
        omega
      · omega

/-- What comes before rows does not hide a block in them. -/
theorem length_blocksFrom_le_append (block? : Option (List String)) (front rest : List String) :
    (blocksFrom fence none rest).length ≤ (blocksFrom fence block? (front ++ rest)).length := by
  induction front generalizing block? with
  | nil =>
    cases block? with
    | none => exact Nat.le_refl _
    | some block => exact (length_blocksFrom_some fence block rest).1
  | cons row front ih =>
    cases block? with
    | none =>
      rw [List.cons_append, blocksFrom]
      split
      · exact ih _
      · exact ih _
    | some block =>
      rw [List.cons_append, blocksFrom]
      split
      · exact Nat.le_succ_of_le (ih _)
      · exact ih _

/-- Between an opening fence and a closing one a block ends in any case. -/
theorem length_blocksFrom_lt_append (block? : Option (List String)) (front body rest : List String) :
    (blocksFrom fence none rest).length
      < (blocksFrom fence block? (front ++ fence.opening :: body ++ fence.closing :: rest)).length := by
  obtain ⟨inside, more, hinside, -, hrest⟩ := exists_first_stop fence.closing body
  calc (blocksFrom fence none rest).length
      ≤ (blocksFrom fence none (more ++ rest)).length :=
        length_blocksFrom_le_append fence none more rest
    _ < (blocksFrom fence none (fence.opening :: (body ++ fence.closing :: rest))).length := by
        rw [blocksFrom, if_pos rfl, hrest rest, blocksFrom_some_append_closing hinside]
        exact Nat.lt_succ_self _
    _ ≤ _ := by
        rw [List.append_assoc]
        exact length_blocksFrom_le_append fence block? front _

end Reading

/-! ## Chunks as rows of a page -/

/-- The rows that a chunk makes on a page. -/
def chunkRows (fence : Fence) (chunk : Chunk) : List String :=
  match chunk.kind with
  | .markdown => chunk.lines ++ [""]
  | .code => fence.opening :: chunk.lines ++ [fence.closing, ""]

/-- The rows of a page. Behind its last newline one more begins. -/
def pageRows (fence : Fence) (chunks : List Chunk) : List String :=
  chunks.flatMap (chunkRows fence) ++ [""]

/-- The lines of the chunks of code, chunk by chunk. -/
def codeLines (chunks : List Chunk) : List (List String) :=
  (chunks.filter (·.kind = .code)).map Chunk.lines

/-- No line of a chunk is taken for a fence: none of code for the closing one, and none of prose for
the opening one of a block that ends. -/
structure Separable (fence : Fence) (chunks : List Chunk) : Prop where
  code : ∀ chunk ∈ chunks, chunk.kind = .code → fence.closing ∉ chunk.lines
  prose : ∀ before chunk after, chunks = before ++ chunk :: after → chunk.kind = .markdown →
    ∀ front back, chunk.lines = front ++ fence.opening :: back →
      fence.closing ∉ back ++ pageRows fence after

section Rows

variable {fence : Fence} {chunk : Chunk} {chunks : List Chunk}

theorem pageRows_cons_of_code (h : chunk.kind = .code) :
    pageRows fence (chunk :: chunks)
      = fence.opening :: chunk.lines ++ fence.closing :: "" :: pageRows fence chunks := by
  rw [pageRows, List.flatMap_cons, chunkRows, h, pageRows]
  simp

theorem pageRows_cons_of_markdown (h : chunk.kind = .markdown) :
    pageRows fence (chunk :: chunks) = chunk.lines ++ "" :: pageRows fence chunks := by
  rw [pageRows, List.flatMap_cons, chunkRows, h, pageRows]
  simp

theorem codeLines_cons_of_code (h : chunk.kind = .code) :
    codeLines (chunk :: chunks) = chunk.lines :: codeLines chunks := by
  rw [codeLines, List.filter_cons_of_pos (by simpa using h)]
  rfl

theorem codeLines_cons_of_markdown (h : chunk.kind = .markdown) :
    codeLines (chunk :: chunks) = codeLines chunks := by
  have hcode : ¬ chunk.kind = .code := by
    rw [h]
    exact Kind.noConfusion
  rw [codeLines, List.filter_cons_of_neg (by simpa using hcode), codeLines]

theorem separable_nil (fence : Fence) : Separable fence [] where
  code := List.forall_mem_nil _
  prose _ _ _ hchunks :=
    absurd hchunks.symm (List.append_ne_nil_of_right_ne_nil _ (List.cons_ne_nil _ _))

/-- Each chunk has its own part in a page being separable. -/
theorem separable_cons_iff :
    Separable fence (chunk :: chunks) ↔
      ((chunk.kind = .code → fence.closing ∉ chunk.lines) ∧
        (chunk.kind = .markdown → ∀ front back, chunk.lines = front ++ fence.opening :: back →
          fence.closing ∉ back ++ pageRows fence chunks)) ∧
      Separable fence chunks := by
  constructor
  · intro h
    refine ⟨⟨h.code chunk List.mem_cons_self, h.prose [] chunk chunks rfl⟩, ?_, ?_⟩
    · exact fun later hlater => h.code later (List.mem_cons_of_mem _ hlater)
    · intro before later after hchunks
      exact h.prose (chunk :: before) later after (congrArg (chunk :: ·) hchunks)
  · intro ⟨⟨hcode, hprose⟩, hrest⟩
    refine ⟨List.forall_mem_cons.2 ⟨hcode, hrest.code⟩, ?_⟩
    intro before later after hchunks
    cases before with
    | nil =>
      obtain ⟨rfl, rfl⟩ := List.cons.inj hchunks
      exact hprose
    | cons first before =>
      obtain ⟨-, hchunks⟩ := List.cons.inj hchunks
      exact hrest.prose before later after hchunks

theorem separable_cons_of_code (h : chunk.kind = .code) :
    Separable fence (chunk :: chunks) ↔ fence.closing ∉ chunk.lines ∧ Separable fence chunks := by
  rw [separable_cons_iff, h]
  simp

theorem separable_cons_of_markdown (h : chunk.kind = .markdown) :
    Separable fence (chunk :: chunks) ↔
      (∀ front back, chunk.lines = front ++ fence.opening :: back →
        fence.closing ∉ back ++ pageRows fence chunks) ∧ Separable fence chunks := by
  rw [separable_cons_iff, h]
  simp

/-- As many blocks as there are chunks of code are found on a page in any case. -/
theorem length_codeLines_le (fence : Fence) (block? : Option (List String)) (front : List String)
    (chunks : List Chunk) :
    (codeLines chunks).length
      ≤ (blocksFrom fence block? (front ++ pageRows fence chunks)).length := by
  induction chunks generalizing block? front with
  | nil => exact Nat.zero_le _
  | cons chunk chunks ih =>
    cases hkind : chunk.kind with
    | markdown =>
      have hrest := ih block? (front ++ (chunk.lines ++ [""]))
      rw [codeLines_cons_of_markdown hkind, pageRows_cons_of_markdown hkind]
      simpa only [List.append_assoc, List.singleton_append] using hrest
    | code =>
      have hblock := length_blocksFrom_lt_append fence block? front chunk.lines
        ("" :: pageRows fence chunks)
      have hrest := ih none [""]
      rw [codeLines_cons_of_code hkind, pageRows_cons_of_code hkind, List.length_cons]
      rw [List.append_assoc] at hblock
      exact Nat.lt_of_le_of_lt hrest hblock

/-- A block that ends before the rows of a page is one more than the page has chunks of code. -/
theorem cons_blocksFrom_ne_codeLines (block front : List String) :
    block :: blocksFrom fence none (front ++ pageRows fence chunks) ≠ codeLines chunks := by
  intro heq
  have hlength := congrArg List.length heq
  have hle := length_codeLines_le fence none front chunks
  rw [List.length_cons] at hlength
  omega

/-! ## Telling the fences from the rows -/

/-- A block that is open before a chunk of code ends in it, and has other lines than the chunk: it
would end with the empty row before the chunk, or with the opening fence in it. -/
theorem blocksFrom_some_ne_codeLines_of_code (hkind : chunk.kind = .code) (hchunk : chunk.Trimmed)
    (hclosing : fence.closing ≠ "") {front : List String} (hfront : fence.closing ∉ front) :
    blocksFrom fence (some (front ++ [""])) (pageRows fence (chunk :: chunks))
      ≠ codeLines (chunk :: chunks) := by
  intro h
  obtain ⟨inside, more, hinside, hrows, hpage⟩ :=
    exists_first_stop fence.closing (fence.opening :: chunk.lines)
  rw [pageRows_cons_of_code hkind, hpage, blocksFrom_some_append_closing hinside,
    codeLines_cons_of_code hkind] at h
  have hlines : front ++ [""] ++ inside = chunk.lines := (List.cons.inj h).1
  by_cases hsame : fence.opening = fence.closing
  · -- the opening fence ends the block at once
    have hnil : inside = [] := by
      cases inside with
      | nil => rfl
      | cons row inside =>
        have hrow : fence.opening = row := List.head_eq_of_cons_eq hrows
        exact absurd (hrow ▸ hsame ▸ List.mem_cons_self) hinside
    rw [hnil, List.append_nil] at hlines
    have hlast : chunk.lines.getLast? = some "" := by rw [← hlines, List.getLast?_concat]
    exact hchunk.last "" hlast rfl
  · -- the block goes on to the end of the chunk, and is longer than it
    have hnot : fence.closing ∉ fence.opening :: chunk.lines := by
      rw [← hlines]
      simp [Ne.symm hsame, hfront, hclosing, hinside]
    obtain ⟨heq, -⟩ := append_cons_inj hnot hinside hrows
    have hlength := congrArg List.length hlines
    rw [← heq, List.length_append, List.length_append, List.length_singleton, List.length_cons]
      at hlength
    omega

/-- A block that is open before the rows of a page, with an empty row at its end, does not end if the
blocks are the chunks of code. -/
theorem closing_not_mem_of_blocksFrom_eq (hclosing : fence.closing ≠ "")
    (htrimmed : ∀ chunk ∈ chunks, chunk.Trimmed) {front : List String}
    (hfront : fence.closing ∉ front)
    (h : blocksFrom fence (some (front ++ [""])) (pageRows fence chunks) = codeLines chunks) :
    fence.closing ∉ pageRows fence chunks := by
  induction chunks generalizing front with
  | nil => exact fun hmem => hclosing (List.mem_singleton.1 hmem)
  | cons chunk chunks ih =>
    obtain ⟨hchunk, hchunks⟩ := List.forall_mem_cons.1 htrimmed
    cases hkind : chunk.kind with
    | markdown =>
      rw [pageRows_cons_of_markdown hkind, codeLines_cons_of_markdown hkind] at h
      rw [pageRows_cons_of_markdown hkind]
      by_cases hmem : fence.closing ∈ chunk.lines
      · -- the block ends in the prose, and all the chunks of code are still to come
        obtain ⟨inside, more, hlines, hinside⟩ := List.eq_append_cons_of_mem hmem
        rw [hlines, List.append_assoc, List.cons_append, blocksFrom_some_append_closing hinside,
          ← List.singleton_append (l := pageRows fence chunks), ← List.append_assoc] at h
        exact absurd h (cons_blocksFrom_ne_codeLines _ _)
      · -- the prose belongs to the block, which has the empty row behind it at its end
        have hrows : fence.closing ∉ chunk.lines ++ [""] := by
          rw [List.mem_append, List.mem_singleton, not_or]
          exact ⟨hmem, hclosing⟩
        rw [← List.singleton_append (l := pageRows fence chunks), ← List.append_assoc] at h ⊢
        rw [blocksFrom_some_append hrows, ← List.append_assoc] at h
        have hlonger : fence.closing ∉ front ++ [""] ++ chunk.lines := by
          rw [List.mem_append, List.mem_append, List.mem_singleton, not_or, not_or]
          exact ⟨⟨hfront, hclosing⟩, hmem⟩
        rw [List.mem_append, not_or]
        exact ⟨hrows, ih hchunks hlonger h⟩
    | code => exact absurd h (blocksFrom_some_ne_codeLines_of_code hkind hchunk hclosing hfront)

/-- A page without a closing fence has no code, so that no line of it is taken for a fence. -/
theorem separable_of_closing_not_mem (h : fence.closing ∉ pageRows fence chunks) :
    codeLines chunks = [] ∧ Separable fence chunks := by
  induction chunks with
  | nil => exact ⟨rfl, separable_nil fence⟩
  | cons chunk chunks ih =>
    cases hkind : chunk.kind with
    | markdown =>
      rw [pageRows_cons_of_markdown hkind, List.mem_append, List.mem_cons, not_or, not_or] at h
      obtain ⟨hlines, -, hrest⟩ := h
      obtain ⟨hcode, hseparable⟩ := ih hrest
      rw [codeLines_cons_of_markdown hkind, separable_cons_of_markdown hkind]
      refine ⟨hcode, fun front back heq => ?_, hseparable⟩
      rw [List.mem_append, not_or]
      refine ⟨fun hback => hlines ?_, hrest⟩
      rw [heq]
      exact List.mem_append_right _ (List.mem_cons_of_mem _ hback)
    | code =>
      -- a chunk of code has its closing fence behind it
      rw [pageRows_cons_of_code hkind] at h
      exact absurd (List.mem_append_right _ List.mem_cons_self) h

/-- Where prose holds an opening fence, the blocks from there on are the chunks of code exactly if there
are none of either: no block ends. -/
theorem blocksFrom_of_opening_iff (hclosing : fence.closing ≠ "")
    (htrimmed : ∀ chunk ∈ chunks, chunk.Trimmed) (back : List String) :
    blocksFrom fence (some []) (back ++ "" :: pageRows fence chunks) = codeLines chunks ↔
      fence.closing ∉ back ++ pageRows fence chunks := by
  by_cases hback : fence.closing ∈ back
  · obtain ⟨inside, more, hlines, hinside⟩ := List.eq_append_cons_of_mem hback
    have hrows : back ++ "" :: pageRows fence chunks
        = inside ++ fence.closing :: ((more ++ [""]) ++ pageRows fence chunks) := by
      rw [hlines]
      simp
    rw [hrows, blocksFrom_some_append_closing hinside]
    exact iff_of_false (cons_blocksFrom_ne_codeLines _ _) fun h => h (List.mem_append_left _ hback)
  · have hrows : back ++ "" :: pageRows fence chunks = (back ++ [""]) ++ pageRows fence chunks := by
      rw [List.append_assoc, List.singleton_append]
    have hnot : fence.closing ∉ back ++ [""] := by
      rw [List.mem_append, List.mem_singleton, not_or]
      exact ⟨hback, hclosing⟩
    rw [hrows, blocksFrom_some_append hnot, List.nil_append, List.mem_append, not_or]
    constructor
    · exact fun h => ⟨hback, closing_not_mem_of_blocksFrom_eq hclosing htrimmed hback h⟩
    · intro ⟨_, hpage⟩
      rw [blocksFrom_some_of_not_mem hpage, (separable_of_closing_not_mem hpage).1]

/-- The blocks of a page are the chunks of code exactly if no line of a chunk is taken for a fence. -/
theorem blocksFrom_pageRows_iff (hopening : fence.opening ≠ "") (hclosing : fence.closing ≠ "")
    (htrimmed : ∀ chunk ∈ chunks, chunk.Trimmed) :
    blocksFrom fence none (pageRows fence chunks) = codeLines chunks ↔ Separable fence chunks := by
  have hblank (rows : List String) : blocksFrom fence none ("" :: rows) = blocksFrom fence none rows := by
    rw [blocksFrom, if_neg (Ne.symm hopening)]
  induction chunks with
  | nil => exact iff_of_true (hblank []) (separable_nil fence)
  | cons chunk chunks ih =>
    obtain ⟨-, hchunks⟩ := List.forall_mem_cons.1 htrimmed
    have hrest : blocksFrom fence none (pageRows fence chunks) = codeLines chunks ↔
        Separable fence chunks := ih hchunks
    cases hkind : chunk.kind with
    | code =>
      rw [pageRows_cons_of_code hkind, codeLines_cons_of_code hkind, separable_cons_of_code hkind,
        List.cons_append, blocksFrom, if_pos rfl]
      by_cases hmem : fence.closing ∈ chunk.lines
      · -- the block ends within the chunk
        obtain ⟨inside, more, hlines, hinside⟩ := List.eq_append_cons_of_mem hmem
        have hne : inside ≠ chunk.lines := fun heq => hinside (heq ▸ hmem)
        rw [hlines, List.append_assoc, List.cons_append, blocksFrom_some_append_closing hinside,
          ← hlines]
        exact iff_of_false (fun h => hne (List.cons.inj h).1) fun h => h.1 hmem
      · rw [blocksFrom_some_append_closing hmem, hblank, List.nil_append, List.cons.injEq, hrest]
        exact and_congr_left' (iff_of_true rfl hmem)
    | markdown =>
      rw [pageRows_cons_of_markdown hkind, codeLines_cons_of_markdown hkind,
        separable_cons_of_markdown hkind]
      by_cases hmem : fence.opening ∈ chunk.lines
      · obtain ⟨front, back, hlines, hfront⟩ := List.eq_append_cons_of_mem hmem
        rw [hlines, List.append_assoc, List.cons_append, blocksFrom_none_append_opening hfront,
          blocksFrom_of_opening_iff hclosing hchunks]
        refine ⟨fun h => ⟨fun front' back' heq => ?_, ?_⟩, fun h => h.1 front back rfl⟩
        · -- the first opening fence has the most rows behind it
          have hsuffix := isSuffix_of_append_cons_eq hfront heq
          intro hmem
          apply h
          rw [List.mem_append] at hmem ⊢
          exact hmem.imp_left fun hback => hsuffix.subset hback
        · exact (separable_of_closing_not_mem fun hmem => h (List.mem_append_right _ hmem)).2
      · rw [blocksFrom_none_append hmem, hblank, hrest]
        refine (and_iff_right ?_).symm
        intro front back heq
        rw [heq] at hmem
        exact absurd (List.mem_append_right _ List.mem_cons_self) hmem

end Rows

/-! ## The page of a source -/

section Rendering

variable {fence : Fence} {options : Options} {chunk : Chunk} {chunks : List Chunk}

/-- A chunk is rendered row by row. -/
theorem renderChunk_eq_unlines (fence : Fence) (chunk : Chunk) :
    renderChunk fence chunk = Text.unlines "\n" (chunkRows fence chunk) := by
  unfold renderChunk chunkRows
  cases chunk.kind with
  | markdown =>
    rw [unlines_append]
    rfl
  | code =>
    rw [List.cons_append, unlines_cons, unlines_append]
    show _ = fence.opening ++ "\n" ++ (unlines "\n" chunk.lines ++ (fence.closing ++ "\n" ++ "\n"))
    simp only [String.append_assoc]
    rfl

theorem newline_not_mem_chunkRows (hopening : '\n' ∉ fence.opening.toList)
    (hclosing : '\n' ∉ fence.closing.toList) (hlines : ∀ line ∈ chunk.lines, '\n' ∉ line.toList) :
    ∀ row ∈ chunkRows fence chunk, '\n' ∉ row.toList := by
  have hempty : '\n' ∉ "".toList := by decide
  unfold chunkRows
  cases chunk.kind with
  | markdown => exact List.forall_mem_append.2 ⟨hlines, List.forall_mem_singleton.2 hempty⟩
  | code =>
    exact List.forall_mem_append.2 ⟨List.forall_mem_cons.2 ⟨hopening, hlines⟩,
      List.forall_mem_cons.2 ⟨hclosing, List.forall_mem_singleton.2 hempty⟩⟩

/-- A page without a block about its source is the rows of its chunks. -/
theorem rows_render (hurl : options.editUrl? = none)
    (hrows : ∀ chunk ∈ chunks, ∀ row ∈ chunkRows options.fence chunk, '\n' ∉ row.toList) :
    rows (render options chunks) = pageRows options.fence chunks := by
  have hpage : render options chunks
      = Text.unlines "\n" (chunks.flatMap (chunkRows options.fence)) := by
    have hhead : render options chunks = "" ++ String.join (chunks.map (renderChunk options.fence)) := by
      rw [render, hurl]
      cases options.documenter <;> rfl
    rw [hhead, String.empty_append]
    clear hhead hrows
    induction chunks with
    | nil => rfl
    | cons chunk chunks ih =>
      rw [List.map_cons, String.join_cons, ih, renderChunk_eq_unlines, List.flatMap_cons,
        unlines_append]
  rw [hpage, rows_unlines, pageRows]
  intro row hrow
  obtain ⟨chunk, hchunk, hmem⟩ := List.mem_flatMap.1 hrow
  exact hrows chunk hchunk row hmem

/-- Unless options bring fences of their own, the closing one is bare and the opening one is the same
with a label. -/
theorem fence_of_none (h : options.fence? = none) :
    options.fence.closing = "```" ∧ ∃ label, options.fence.opening = "```" ++ label := by
  unfold Options.fence
  rw [h]
  cases options.documenter with
  | true =>
    refine ⟨rfl, "@example " ++ options.name, ?_⟩
    rw [← String.append_assoc]
    rfl
  | false => exact ⟨rfl, options.language, rfl⟩

/-- A fence of more than one row is no row. -/
theorem separable_of_newline_mem (hnewline : '\n' ∈ fence.opening.toList) (hcode : codeLines chunks = [])
    (hchunks : ∀ chunk ∈ chunks, chunk.WellFormed) : Separable fence chunks where
  code chunk hchunk hkind := by
    have hmem : chunk.lines ∈ codeLines chunks :=
      List.mem_map_of_mem (List.mem_filter.2 ⟨hchunk, by simpa using hkind⟩)
    rw [hcode] at hmem
    cases hmem
  prose before chunk after heq _ front back hlines := by
    have hchunk : chunk ∈ chunks := heq ▸ List.mem_append_right _ List.mem_cons_self
    have hmem : fence.opening ∈ chunk.lines := hlines ▸ List.mem_append_right _ List.mem_cons_self
    exact absurd hnewline ((hchunks chunk hchunk).newline_not_mem _ hmem)

/-- No block is read off a page if the opening fence is more than one row. -/
theorem blocks_of_newline_mem (hnewline : '\n' ∈ fence.opening.toList) (page : String) :
    blocks fence page = [] := by
  apply blocksFrom_none_of_not_mem
  exact fun hmem => newline_not_mem_of_mem_rows hmem hnewline

/-- With fences of one row each, the code can be found in a page exactly if it is separable. -/
theorem blocks_render_iff_of_newline_not_mem (hfence : options.fence? = none)
    (hurl : options.editUrl? = none) (hnewline : '\n' ∉ options.fence.opening.toList)
    (hchunks : ∀ chunk ∈ chunks, chunk.WellFormed) :
    blocks options.fence (render options chunks) = codeLines chunks ↔
      Separable options.fence chunks := by
  obtain ⟨hclosing, label, hopening⟩ := fence_of_none hfence
  have hrows : ∀ chunk ∈ chunks, ∀ row ∈ chunkRows options.fence chunk, '\n' ∉ row.toList :=
    fun chunk hchunk => newline_not_mem_chunkRows hnewline (by rw [hclosing]; decide)
      (hchunks chunk hchunk).newline_not_mem
  have hopening' : options.fence.opening ≠ "" := by
    rw [hopening]
    intro hempty
    exact absurd (String.append_eq_empty_iff.1 hempty).1 (by decide)
  have hclosing' : options.fence.closing ≠ "" := by
    rw [hclosing]
    decide
  unfold blocks
  rw [rows_render hurl hrows]
  exact blocksFrom_pageRows_iff hopening' hclosing' fun chunk hchunk =>
    (hchunks chunk hchunk).toTrimmed

/-- The blocks that are read off a page are the chunks of code exactly if the opening fence is one row,
no line of code is the closing fence, and no line of prose is an opening fence that one closes. -/
theorem blocks_render_eq_iff {text : String} (h : Chunk.parse text .markdown = .ok chunks)
    (options : Options) (hfence : options.fence? = none) (hurl : options.editUrl? = none) :
    (blocks options.fence (render options chunks) = codeLines chunks ↔
      ('\n' ∈ options.fence.opening.toList → codeLines chunks = []) ∧
        Separable options.fence chunks) ∧
    ∀ source, unifyNewlines source = text →
      Document.weave source .markdown options {} = .ok (.text (render options chunks)) := by
  have hchunks := Chunk.wellFormed_of_parse h
  constructor
  · by_cases hnewline : '\n' ∈ options.fence.opening.toList
    · rw [blocks_of_newline_mem hnewline]
      constructor
      · intro hnone
        exact ⟨fun _ => hnone.symm, separable_of_newline_mem hnewline hnone.symm hchunks⟩
      · intro ⟨hnone, _⟩
        exact (hnone hnewline).symm
    · rw [blocks_render_iff_of_newline_not_mem hfence hurl hnewline hchunks]
      exact (and_iff_right fun hmem => absurd hmem hnewline).symm
  · intro source hsource
    rw [Document.weave_of_no_hooks, hsource, h]
    rfl

/-- Prose with a block of its own and, behind the code, a fence that nothing closes. -/
theorem blocks_render_eq_iff_prose_block :
    let options := Options.ofSettings {} "ex"
    let source := "#' Calls:\n#' ```julia\n#' f(1)\n#' ```\nf(x) = 1\n#-\n@example(f)\n#' ```@example ex\n"
    let chunks : List Chunk := [⟨.markdown, ["Calls:", "```julia", "f(1)", "```"]⟩,
      ⟨.code, ["f(x) = 1"]⟩, ⟨.code, ["@example(f)"]⟩, ⟨.markdown, ["```@example ex"]⟩]
    Chunk.parse source .markdown = .ok chunks ∧ options.fence? = none ∧ options.editUrl? = none ∧
      Separable options.fence chunks ∧
      blocks options.fence (render options chunks) = [["f(x) = 1"], ["@example(f)"]] ∧
      Document.weave source .markdown options {} = .ok (.text (render options chunks)) := by
  intro options source chunks
  have hparse : Chunk.parse source .markdown = .ok chunks := by decide
  obtain ⟨hiff, hweave⟩ := blocks_render_eq_iff hparse options rfl rfl
  have hblocks : blocks options.fence (render options chunks) = codeLines chunks := by decide
  exact ⟨hparse, rfl, rfl, (hiff.1 hblocks).2, hblocks, hweave source (by decide)⟩

/-- Not every page tells its code: here a line of code is taken for the closing fence. -/
theorem not_forall_blocks_eq :
    ¬ ∀ (source page : String) (options : Options) (chunks : List Chunk),
      options.fence? = none → options.editUrl? = none → Chunk.parse source .markdown = .ok chunks →
      Document.weave source .markdown options {} = .ok (.text page) →
      blocks options.fence page = codeLines chunks := by
  intro h
  have hparse : Chunk.parse "x = 1\n```\ny = 2\n" .markdown
      = .ok [⟨.code, ["x = 1", "```", "y = 2"]⟩] := by decide
  have hweave : Document.weave "x = 1\n```\ny = 2\n" .markdown (Options.ofSettings {} "example") {}
      = .ok (.text "```@example example\nx = 1\n```\ny = 2\n```\n\n") := by
    rw [Document.weave_of_no_hooks, unifyNewlines_of_not_mem (by decide), hparse]
    exact congrArg (fun page => Except.ok (Document.text page)) (by decide)
  exact absurd (h _ _ _ _ rfl rfl hparse hweave) (by decide)

end Rendering

end Page

end Weave
