import Mathlib.Algebra.Group.Nat.Defs
import Mathlib.Data.List.Basic
import Weave.Notebook.Execution
import Weave.Workplace

/-!
# Attempts to execute a notebook

What an executor answers decides alone what an attempt makes of the notebook that is held
(`settle`): an answer with one list of outputs for each code cell is attached as a whole, any other
answer leaves the notebook as it was. All attempts on one notebook ask for the same sources, as
attaching outputs leaves the sources alone (`codeSources_withResults`), and what one attempt has
attached a later one replaces (`withResults_withResults`), so that of a history of attempts only the
last answer that fits is left (`run_attempts`). Among the code cells alone, the list of outputs at a
position belongs to the cell at that position (`answered_withResults`).
-/

namespace Weave

/-- What an executor answers. -/
abbrev Answer := Except Error (List (List Json))

namespace Notebook

variable {book held : Notebook} {results results' : List (List Json)} {answer : Answer}
  {answers : List Answer}

/-! ## Attaching outputs -/

/-- The number of code cells before a position. -/
def codeBefore (cells : List Cell) (j : ℕ) : ℕ :=
  (cells.take j).countP (·.kind = .code)

/-- Outputs are attached to a notebook: the code cells are numbered from one on and each has the
next list of outputs; all else is as before. -/
structure Executed (before : Notebook) (results : List (List Json)) (after : Notebook) : Prop where
  frame : after = { before with cells := after.cells }
  length_eq : after.cells.length = before.cells.length
  markdown : ∀ (j : ℕ) (metadata : List (String × Json)) (source : String),
    before.cells[j]? = some (.markdown metadata source) →
      after.cells[j]? = some (.markdown metadata source)
  code : ∀ (j : ℕ) (metadata : List (String × Json)) (source : String) (count? : Option UInt32)
    (outputs : List Json), before.cells[j]? = some (.code metadata source count? outputs) →
      ∃ (count : UInt32) (outputs' : List Json),
        after.cells[j]? = some (.code metadata source (some count) outputs') ∧
        count.toNat = codeBefore before.cells j + 1 ∧
        results[codeBefore before.cells j]? = some outputs'

theorem length_codeSources : book.codeSources.length = book.cells.countP (·.kind = .code) := by
  rw [codeSources, List.length_map, List.countP_eq_length_filter]

theorem codeBefore_markdown (metadata : List (String × Json)) (source : String) (cells : List Cell)
    (j : ℕ) : codeBefore (.markdown metadata source :: cells) (j + 1) = codeBefore cells j := by
  rw [codeBefore, List.take_succ_cons, List.countP_cons_of_neg (by simp [Cell.kind]), codeBefore]

theorem codeBefore_code (metadata : List (String × Json)) (source : String)
    (count? : Option UInt32) (outputs : List Json) (cells : List Cell) (j : ℕ) :
    codeBefore (.code metadata source count? outputs :: cells) (j + 1)
      = codeBefore cells j + 1 := by
  rw [codeBefore, List.take_succ_cons, List.countP_cons_of_pos (by simp [Cell.kind]), codeBefore]

/-- Where nothing is attached there is no cell left, or a code cell comes and no outputs are left. -/
theorem eq_nil_or_of_nothing_attached {cells : List Cell} {results : List (List Json)}
    (hcode : ∀ metadata source count? outputs rest first more,
      cells = .code metadata source count? outputs :: rest → results = first :: more → False)
    (hmarkdown : ∀ metadata source rest, cells = .markdown metadata source :: rest → False) :
    cells = [] ∨ results = [] ∧ ∃ metadata source count? outputs rest,
      cells = .code metadata source count? outputs :: rest := by
  cases cells with
  | nil => exact Or.inl rfl
  | cons cell cells =>
    cases cell with
    | markdown metadata source => exact absurd rfl (hmarkdown metadata source cells)
    | code metadata source count? outputs =>
      cases results with
      | nil => exact Or.inr ⟨rfl, metadata, source, count?, outputs, cells, rfl⟩
      | cons first results =>
        exact absurd rfl (hcode metadata source count? outputs cells first results rfl)

/-- Attaching outputs adds no cells and takes none away. -/
theorem length_attachOutputs (count : UInt32) (cells : List Cell) (results : List (List Json)) :
    (attachOutputs count cells results).length = cells.length := by
  fun_induction attachOutputs count cells results with
  | case1 => simp [*]
  | case2 => simp [*]
  | case3 => rfl

/-- Attaching outputs leaves the code alone. -/
theorem sources_attachOutputs (count : UInt32) (cells : List Cell) (results : List (List Json)) :
    ((attachOutputs count cells results).filter (·.kind = .code)).map Cell.source
      = (cells.filter (·.kind = .code)).map Cell.source := by
  fun_induction attachOutputs count cells results with
  | case1 count metadata source _ _ cells outputs results ih =>
    simpa [Cell.kind, Cell.source] using ih
  | case2 count metadata source cells results ih => simpa [Cell.kind] using ih
  | case3 => rfl

/-- What was attached before does not count. -/
theorem attachOutputs_attachOutputs (count : UInt32) (cells : List Cell)
    (h : results.length = results'.length) :
    attachOutputs count (attachOutputs count cells results) results'
      = attachOutputs count cells results' := by
  fun_induction attachOutputs count cells results generalizing results' with
  | case1 count metadata source _ _ cells outputs results ih =>
    cases results' with
    | nil => cases h
    | cons outputs' results' =>
      rw [attachOutputs, attachOutputs, ih (Nat.succ.inj h)]
  | case2 count metadata source cells results ih => rw [attachOutputs, attachOutputs, ih h]
  | case3 => rfl

/-- Attaching outputs leaves prose alone. -/
theorem getElem?_attachOutputs_markdown (count : UInt32) (cells : List Cell)
    (results : List (List Json)) {j : ℕ} {metadata : List (String × Json)} {source : String}
    (h : cells[j]? = some (.markdown metadata source)) :
    (attachOutputs count cells results)[j]? = some (.markdown metadata source) := by
  fun_induction attachOutputs count cells results generalizing j with
  | case1 count _ _ _ _ cells outputs results ih =>
    cases j with
    | zero => simp at h
    | succ j => exact ih h
  | case2 count _ _ cells results ih =>
    cases j with
    | zero => exact h
    | succ j => exact ih h
  | case3 => exact h

/-- The code cell behind `k` others has the number `count + k` and the list of outputs at `k`. -/
theorem getElem?_attachOutputs_code (count : UInt32) (cells : List Cell)
    (results : List (List Json)) (hresults : results.length = cells.countP (·.kind = .code)) {j : ℕ}
    {metadata : List (String × Json)} {source : String} {count? : Option UInt32}
    {outputs : List Json} (h : cells[j]? = some (.code metadata source count? outputs)) :
    ∃ outputs', results[codeBefore cells j]? = some outputs' ∧
      (attachOutputs count cells results)[j]?
        = some (.code metadata source (some (count + UInt32.ofNat (codeBefore cells j)))
            outputs') := by
  fun_induction attachOutputs count cells results generalizing j with
  | case1 count _ _ _ _ cells first results ih =>
    cases j with
    | zero =>
      obtain ⟨hmetadata, hsource, -, -⟩ := Cell.code.inj (Option.some.inj h)
      have hcount : count + UInt32.ofNat 0 = count := UInt32.add_zero count
      refine ⟨first, rfl, ?_⟩
      rw [List.getElem?_cons_zero, hmetadata, hsource, codeBefore, List.take_zero, List.countP_nil,
        hcount]
    | succ j =>
      have hlength : results.length = cells.countP (·.kind = .code) := by
        rw [List.countP_cons_of_pos (by simp [Cell.kind])] at hresults
        exact Nat.succ.inj hresults
      obtain ⟨outputs', hget, hcell⟩ := ih hlength h
      refine ⟨outputs', ?_, ?_⟩
      · rw [codeBefore_code]
        exact hget
      · have hcount : count + UInt32.ofNat (codeBefore cells j + 1)
            = count + 1 + UInt32.ofNat (codeBefore cells j) := by
          rw [UInt32.ofNat_add, UInt32.add_comm (UInt32.ofNat _), UInt32.add_assoc]
          rfl
        rw [codeBefore_code, hcount]
        exact hcell
  | case2 count _ _ cells results ih =>
    cases j with
    | zero => simp at h
    | succ j =>
      have hlength : results.length = cells.countP (·.kind = .code) := by
        rw [List.countP_cons_of_neg (by simp [Cell.kind])] at hresults
        exact hresults
      rw [codeBefore_markdown]
      exact ih hlength h
  | case3 count cells results hcode hmarkdown =>
    obtain rfl | ⟨rfl, _, _, _, _, _, rfl⟩ := eq_nil_or_of_nothing_attached hcode hmarkdown
    · cases h
    · rw [List.countP_cons_of_pos (by simp [Cell.kind])] at hresults
      cases hresults

/-- A notebook with results has the code that it had without them. -/
theorem codeSources_withResults : (book.withResults results).codeSources = book.codeSources :=
  sources_attachOutputs 1 book.cells results

/-- Results take the place of older ones. -/
theorem withResults_withResults (h : results.length = results'.length) :
    (book.withResults results).withResults results' = book.withResults results' := by
  unfold withResults
  rw [attachOutputs_attachOutputs 1 book.cells h]

/-- A notebook with one list of outputs for each code cell is executed, as long as its cells can be
counted. -/
theorem executed_withResults (hbook : book.codeSources.length < 2 ^ 31)
    (hresults : results.length = book.codeSources.length) :
    Executed book results (book.withResults results) where
  frame := rfl
  length_eq := length_attachOutputs 1 book.cells results
  markdown j metadata source h := getElem?_attachOutputs_markdown 1 book.cells results h
  code j metadata source count? outputs h := by
    have hlength : results.length = book.cells.countP (·.kind = .code) := by
      rw [hresults, length_codeSources]
    obtain ⟨outputs', hget, hcell⟩ := getElem?_attachOutputs_code 1 book.cells results hlength h
    refine ⟨_, outputs', hcell, ?_, hget⟩
    -- so few cells are counted without overflow
    have hbefore : codeBefore book.cells j < results.length := (List.getElem?_eq_some_iff.1 hget).1
    have hone : (1 : UInt32).toNat = 1 := rfl
    rw [UInt32.toNat_add, UInt32.toNat_ofNat', hone]
    omega

/-! ## Code cells with their outputs -/

/-- The cells of code, in order. -/
def codeCells (book : Notebook) : List Cell :=
  book.cells.filter (·.kind = .code)

/-- The code cells have these lists of outputs, in order, and are numbered from one on. -/
structure Answered (book : Notebook) (results : List (List Json)) : Prop where
  length_eq : book.codeCells.length = results.length
  code : ∀ (i : ℕ) (outputs : List Json), results[i]? = some outputs →
    ∃ metadata source,
      book.codeCells[i]? = some (.code metadata source (some (UInt32.ofNat (i + 1))) outputs)

theorem codeSources_eq_map (book : Notebook) : book.codeSources = book.codeCells.map Cell.source :=
  rfl

/-- Attaching outputs goes by the code cells alone. -/
theorem filter_attachOutputs (count : UInt32) (cells : List Cell) (results : List (List Json)) :
    (attachOutputs count cells results).filter (·.kind = .code)
      = attachOutputs count (cells.filter (·.kind = .code)) results := by
  fun_induction attachOutputs count cells results with
  | case1 count metadata source _ _ cells outputs results ih =>
    rw [List.filter_cons_of_pos (by simp [Cell.kind]), List.filter_cons_of_pos (by simp [Cell.kind]),
      attachOutputs, ih]
  | case2 count metadata source cells results ih =>
    rw [List.filter_cons_of_neg (by simp [Cell.kind]), List.filter_cons_of_neg (by simp [Cell.kind]),
      ih]
  | case3 count cells results hcode hmarkdown =>
    obtain rfl | ⟨rfl, _, _, _, _, _, rfl⟩ := eq_nil_or_of_nothing_attached hcode hmarkdown
    · rfl
    · rw [List.filter_cons_of_pos (by simp [Cell.kind]), attachOutputs.eq_def]

theorem kind_of_mem_codeCells {cell : Cell} (h : cell ∈ book.codeCells) : cell.kind = .code :=
  of_decide_eq_true (List.mem_filter.1 h).2

/-- Among code cells, those before one are as many as its position tells. -/
theorem codeBefore_codeCells {i : ℕ} (hi : i ≤ book.codeCells.length) :
    codeBefore book.codeCells i = i := by
  have hcode : ∀ cell ∈ book.codeCells.take i, decide (cell.kind = .code) = true := by
    intro cell hcell
    exact decide_eq_true (kind_of_mem_codeCells (List.mem_of_mem_take hcell))
  rw [codeBefore, List.countP_eq_length.2 hcode, List.length_take_of_le hi]

/-- Its code cells have been answered with these lists. -/
theorem answered_withResults (hresults : results.length = book.codeSources.length) :
    Answered (book.withResults results) results := by
  have hcells : (book.withResults results).codeCells = attachOutputs 1 book.codeCells results :=
    filter_attachOutputs 1 book.cells results
  have hlength : results.length = book.codeCells.length := by
    rw [hresults, codeSources_eq_map, List.length_map]
  constructor
  · rw [hcells, length_attachOutputs, hlength]
  · intro i outputs hget
    have hi : i < book.codeCells.length := by
      rw [← hlength]
      exact (List.getElem?_eq_some_iff.1 hget).1
    have hcount : results.length = book.codeCells.countP (·.kind = .code) := by
      rw [hlength, eq_comm, List.countP_eq_length]
      intro cell hcell
      exact decide_eq_true (kind_of_mem_codeCells hcell)
    -- among code cells only, the cell at `i` has `i` code cells before it
    have hkind : book.codeCells[i].kind = .code := kind_of_mem_codeCells (List.getElem_mem hi)
    have hcell : book.codeCells[i]? = some book.codeCells[i] := List.getElem?_eq_getElem hi
    rw [hcells]
    cases hheld : book.codeCells[i] with
    | markdown metadata source =>
      rw [hheld] at hkind
      cases hkind
    | code metadata source count? earlier =>
      rw [hheld] at hcell
      obtain ⟨outputs', houtputs, hattached⟩ :=
        getElem?_attachOutputs_code 1 book.codeCells results hcount hcell
      rw [codeBefore_codeCells (Nat.le_of_lt hi)] at houtputs hattached
      obtain rfl : outputs = outputs' := Option.some.inj (hget.symm.trans houtputs)
      rw [UInt32.ofNat_add, UInt32.add_comm]
      exact ⟨metadata, source, hattached⟩

/-! ## One answer -/

/-- An answer with one list of outputs for each code cell of a notebook. -/
def Fits (book : Notebook) (answer : Answer) : Prop :=
  ∃ results, answer = .ok results ∧ results.length = book.codeSources.length

/-- What an attempt gives, and the notebook that it leaves, once the executor has answered. -/
def settle (held : Notebook) : Answer → Except Error Unit × Notebook
  | .error e => (.error e, held)
  | .ok results =>
    if results.length = held.codeSources.length then (.ok (), held.withResults results)
    else (.error ⟨wrongCount results.length held.codeSources.length, none⟩, held)

/-- An answer with a list for each code cell is attached. -/
theorem settle_of_length_eq (h : results.length = held.codeSources.length) :
    settle held (.ok results) = (.ok (), held.withResults results) :=
  if_pos h

/-- An answer that does not fit is an error and changes nothing. -/
theorem settle_of_not_fits (h : ¬ Fits held answer) :
    ∃ e, settle held answer = (.error e, held) := by
  cases answer with
  | error e => exact ⟨e, rfl⟩
  | ok results => exact ⟨_, if_neg fun hlength => h ⟨results, rfl, hlength⟩⟩

/-- An attempt succeeds exactly if the answer fits the notebook. -/
theorem fst_settle_eq_ok_iff : (settle held answer).1 = .ok () ↔ Fits held answer := by
  constructor
  · intro hok
    by_contra hfits
    obtain ⟨e, he⟩ := settle_of_not_fits hfits
    rw [he] at hok
    cases hok
  · rintro ⟨results, rfl, hlength⟩
    rw [settle_of_length_eq hlength]

/-- Whatever the answer, the code stays as it is. -/
theorem codeSources_settle : (settle held answer).2.codeSources = held.codeSources := by
  by_cases hfits : Fits held answer
  · obtain ⟨results, rfl, hlength⟩ := hfits
    rw [settle_of_length_eq hlength]
    exact codeSources_withResults
  · obtain ⟨e, he⟩ := settle_of_not_fits hfits
    rw [he]

/-- What an attempt gives depends on the sources of the notebook only. -/
theorem fst_settle_congr (h : held.codeSources = book.codeSources) (answer : Answer) :
    (settle held answer).1 = (settle book answer).1 := by
  cases answer with
  | error e => rfl
  | ok results => rw [settle, settle, h, apply_ite Prod.fst, apply_ite Prod.fst]

/-! ## Many answers -/

/-- The notebook that is left of `held` after some answers. -/
def afterAnswers (held : Notebook) (answers : List Answer) : Notebook :=
  answers.foldl (fun held answer => (settle held answer).2) held

/-- Answers that do not fit leave no trace. -/
theorem afterAnswers_of_not_fits (h : ∀ answer ∈ answers, ¬ Fits held answer) :
    afterAnswers held answers = held := by
  induction answers with
  | nil => rfl
  | cons answer answers ih =>
    obtain ⟨e, he⟩ := settle_of_not_fits (h answer List.mem_cons_self)
    rw [afterAnswers, List.foldl_cons, he]
    exact ih fun answer' hanswer' => h answer' (List.mem_cons_of_mem _ hanswer')

theorem afterAnswers_append (held : Notebook) (answers answers' : List Answer) :
    afterAnswers held (answers ++ answers') = afterAnswers (afterAnswers held answers) answers' :=
  List.foldl_append

/-- A notebook is `book` itself, or `book` with one list of outputs for each code cell. -/
def Reached (book held : Notebook) : Prop :=
  held = book ∨
    ∃ results, results.length = book.codeSources.length ∧ held = book.withResults results

/-- All notebooks that can be reached have the same code. -/
theorem Reached.codeSources_eq (h : Reached book held) : held.codeSources = book.codeSources := by
  obtain rfl | ⟨results, -, rfl⟩ := h
  · rfl
  · exact codeSources_withResults

/-- Whichever of them gets the results, the notebook that comes of it is the same. -/
theorem Reached.withResults_eq (h : Reached book held)
    (hresults : results.length = book.codeSources.length) :
    held.withResults results = book.withResults results := by
  obtain rfl | ⟨earlier, hearlier, rfl⟩ := h
  · rfl
  · exact withResults_withResults (hearlier.trans hresults.symm)

/-- An attempt leads from one of them to another. -/
theorem Reached.settle (h : Reached book held) (answer : Answer) :
    Reached book (settle held answer).2 := by
  by_cases hfits : Fits held answer
  · obtain ⟨results, rfl, hlength⟩ := hfits
    have hresults : results.length = book.codeSources.length := by rw [hlength, h.codeSources_eq]
    rw [settle_of_length_eq hlength]
    exact Or.inr ⟨results, hresults, h.withResults_eq hresults⟩
  · obtain ⟨e, he⟩ := settle_of_not_fits hfits
    rw [he]
    exact h

/-- So do any number of attempts. -/
theorem reached_afterAnswers (h : Reached book held) (answers : List Answer) :
    Reached book (afterAnswers held answers) := by
  induction answers generalizing held with
  | nil => exact h
  | cons answer answers ih => exact ih (h.settle answer)

/-- The last answer that fits is all that is left. -/
theorem afterAnswers_of_last_fits {earlier later : List Answer}
    (hanswers : answers = earlier ++ .ok results :: later)
    (hresults : results.length = book.codeSources.length)
    (hlater : ∀ answer ∈ later, ¬ Fits book answer) :
    afterAnswers book answers = book.withResults results := by
  have hreached : Reached book (afterAnswers book earlier) :=
    reached_afterAnswers (Or.inl rfl) earlier
  have hlength : results.length = (afterAnswers book earlier).codeSources.length := by
    rw [hresults, hreached.codeSources_eq]
  have hsettle : (Notebook.settle (afterAnswers book earlier) (.ok results)).2
      = book.withResults results := by
    rw [settle_of_length_eq hlength]
    exact hreached.withResults_eq hresults
  have hlater' : ∀ answer ∈ later, ¬ Fits (book.withResults results) answer := by
    intro answer hanswer
    rw [Fits, codeSources_withResults]
    exact hlater answer hanswer
  calc afterAnswers book answers
      = afterAnswers (Notebook.settle (afterAnswers book earlier) (.ok results)).2 later := by
        rw [hanswers, afterAnswers_append]
        rfl
    _ = book.withResults results := by rw [hsettle, afterAnswers_of_not_fits hlater']

/-! ## Running attempts -/

section Run

variable {m : Type → Type} [Monad m]

/-- Attempts to execute the notebook that is held, one after another. -/
def attempts (executors : List (Executor m)) : StateT Notebook m (List (Except Error Unit)) :=
  executors.mapM executeHeld

variable [LawfulMonad m]

/-- An attempt asks once, unless there is no code, and then settles what was answered. -/
theorem run_executeHeld (executor : Executor m) (held : Notebook) :
    (executeHeld executor).run held
      = if held.codeSources = [] then pure (.ok (), held)
        else settle held <$> executor held.codeSources := by
  unfold executeHeld
  rw [StateT.run_bind, StateT.run_get, pure_bind]
  dsimp only
  by_cases hsources : held.codeSources = []
  · rw [if_pos hsources, if_pos (List.isEmpty_iff.2 hsources)]
    rfl
  · rw [if_neg hsources, if_neg fun hempty => hsources (List.isEmpty_iff.1 hempty),
      StateT.run_bind, StateT.run_monadLift, monadLift_self, map_eq_pure_bind, bind_assoc]
    refine bind_congr fun answer => ?_
    rw [pure_bind]
    cases answer with
    | error e => rfl
    | ok results =>
      by_cases hlength : results.length = held.codeSources.length
      · simp [settle, hlength]
      · simp [settle, hlength]

/-- The notebook that an execution gives is the one that an attempt leaves. -/
theorem execute_eq (executor : Executor m) (book : Notebook) :
    book.execute executor
      = if book.codeSources = [] then pure (.ok book)
        else (fun answer => (settle book answer).1.map fun _ => (settle book answer).2) <$>
          executor book.codeSources := by
  rw [execute, run_executeHeld]
  split
  · rw [pure_bind]
    rfl
  · rw [map_eq_pure_bind, map_eq_pure_bind, bind_assoc]
    refine bind_congr fun answer => ?_
    rw [pure_bind]

/-- The next attempt starts with the notebook that the first one leaves. -/
theorem run_attempts_cons (executor : Executor m) (executors : List (Executor m))
    (held : Notebook) :
    (attempts (executor :: executors)).run held = do
      let (result, held) ← (executeHeld executor).run held
      let (results, held) ← (attempts executors).run held
      return (result :: results, held) := by
  rw [attempts, List.mapM_cons, StateT.run_bind]
  rfl

/-- Without code all attempts succeed, and nobody is asked. -/
theorem run_attempts_of_no_code (executors : List (Executor m)) (h : held.codeSources = []) :
    (attempts executors).run held = pure (executors.map fun _ => .ok (), held) := by
  induction executors with
  | nil => rfl
  | cons executor executors ih =>
    rw [run_attempts_cons, run_executeHeld, if_pos h, pure_bind]
    dsimp only
    rw [ih, pure_bind]
    rfl

/-- The effects of attempts are those of asking each executor once for the same sources. -/
theorem run_attempts_of_code (executors : List (Executor m)) (h : held.codeSources ≠ []) :
    (attempts executors).run held
      = (fun answers => (answers.map fun answer => (settle held answer).1,
          afterAnswers held answers)) <$> executors.mapM (· held.codeSources) := by
  induction executors generalizing held with
  | nil =>
    rw [List.mapM_nil, map_pure]
    rfl
  | cons executor executors ih =>
    rw [run_attempts_cons, run_executeHeld, if_neg h, map_eq_pure_bind, bind_assoc, List.mapM_cons,
      map_bind]
    refine bind_congr fun answer => ?_
    have hsources : (settle held answer).2.codeSources = held.codeSources := codeSources_settle
    rw [pure_bind]
    dsimp only
    rw [ih (hsources ▸ h), hsources, map_bind, map_eq_pure_bind, bind_assoc]
    refine bind_congr fun answers => ?_
    simp only [pure_bind, map_pure, List.map_cons, fst_settle_congr hsources]
    rfl

/-- A history of attempts on a notebook with few enough code cells to number. Without code all of
them succeed, nobody is asked and nothing changes. Otherwise each executor is asked once, in turn,
for the sources of the code cells, and nothing else happens; an attempt succeeds just if the answer
has one list of outputs for each of them; and the last answer of this kind is attached to the
notebook that there was before all attempts, or, if there is none, that notebook is left. -/
theorem run_attempts (book : Notebook) (hbook : book.codeSources.length < 2 ^ 31)
    (executors : List (Executor m)) :
    (book.codeSources = [] →
      (attempts executors).run book = pure (executors.map fun _ => .ok (), book)) ∧
    (book.codeSources ≠ [] →
      ∃ outcome : List Answer → List (Except Error Unit) × Notebook,
        (attempts executors).run book = outcome <$> executors.mapM (· book.codeSources) ∧
        ∀ answers : List Answer,
          (outcome answers).1.length = answers.length ∧
          (∀ i : ℕ, (outcome answers).1[i]? = some (.ok ()) ↔
            ∃ results, answers[i]? = some (.ok results) ∧
              results.length = book.codeSources.length) ∧
          ((∀ answer ∈ answers, ¬ Fits book answer) → (outcome answers).2 = book) ∧
          ∀ (earlier later : List Answer) (results : List (List Json)),
            answers = earlier ++ .ok results :: later →
              results.length = book.codeSources.length →
                (∀ answer ∈ later, ¬ Fits book answer) →
                  Executed book results (outcome answers).2) := by
  refine ⟨run_attempts_of_no_code executors, fun hcode => ?_⟩
  refine ⟨_, run_attempts_of_code executors hcode, fun answers => ?_⟩
  refine ⟨List.length_map _, fun i => ?_, afterAnswers_of_not_fits, ?_⟩
  · rw [List.getElem?_map, Option.map_eq_some_iff]
    constructor
    · intro ⟨answer, hanswer, hok⟩
      obtain ⟨results, rfl, hlength⟩ := fst_settle_eq_ok_iff.1 hok
      exact ⟨results, hanswer, hlength⟩
    · intro ⟨results, hanswer, hlength⟩
      exact ⟨_, hanswer, fst_settle_eq_ok_iff.2 ⟨results, rfl, hlength⟩⟩
  · intro earlier later results hanswers hresults hlater
    have hafter : afterAnswers book answers = book.withResults results :=
      afterAnswers_of_last_fits hanswers hresults hlater
    show Executed book results (afterAnswers book answers)
    rw [hafter]
    exact executed_withResults hbook hresults

end Run

/-- Two code cells around prose, and four executors of which the second one and the third give two
lists. -/
theorem run_attempts_four :
    let book : Notebook :=
      { cells := [.code [] "x = 1" none [], .markdown [] "Prose", .code [] "x" (some 7) [.null]]
        kernel := ⟨"Julia", "julia", "julia"⟩, language := ⟨".jl", "application/julia", "julia"⟩ }
    let answers : List Answer :=
      [.error ⟨.execution "killed", none⟩, .ok [[], [.int 1]], .ok [[], [.int 2]], .ok [[]]]
    let executors : List (Executor (StateM Workplace)) :=
      answers.map fun answer => Workplace.scripted fun _ => answer
    book.codeSources.length < 2 ^ 31 ∧
      ∃ (results : List (Except Error Unit)) (after : Notebook),
        (((attempts executors).run book).run {}).1 = (results, after) ∧
        results[1]? = some (.ok ()) ∧ results[2]? = some (.ok ()) ∧ results[3]? ≠ some (.ok ()) ∧
        Executed book [[], [.int 2]] after := by
  intro book answers executors
  have hbook : book.codeSources.length < 2 ^ 31 := by decide
  have hcode : book.codeSources ≠ [] := by decide
  obtain ⟨outcome, hrun, houtcome⟩ := (run_attempts book hbook executors).2 hcode
  obtain ⟨-, hok, -, hlast⟩ := houtcome answers
  have hasked : (StateT.run (executors.mapM fun executor : Executor (StateM Workplace) =>
      executor book.codeSources) {}).1 = answers := rfl
  refine ⟨hbook, (outcome answers).1, (outcome answers).2, ?_, ?_, ?_, ?_, ?_⟩
  · rw [hrun, StateT.run_map]
    show outcome _ = _
    rw [hasked]
  · exact (hok 1).2 ⟨_, rfl, rfl⟩
  · exact (hok 2).2 ⟨_, rfl, rfl⟩
  · intro hthree
    obtain ⟨results, hanswer, hlength⟩ := (hok 3).1 hthree
    cases hanswer
    cases hlength
  · refine hlast (answers.take 2) (answers.drop 3) _ rfl rfl ?_
    intro answer hanswer ⟨results, hfits, hlength⟩
    obtain rfl := List.mem_singleton.1 hanswer
    cases hfits
    cases hlength

end Notebook

end Weave
