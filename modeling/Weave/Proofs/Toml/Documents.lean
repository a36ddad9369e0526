import Mathlib.Data.List.Forall2
import Weave.Proofs.Toml.Strings
import Weave.Toml.Reader

/-!
# TOML documents read back

Lists and truth values are read back as strings are (`Spells`). A document that is written as tables
with headers is read line by line (`ReadsAs`), and its entries build just these tables, provided
that no two tables, and no two names in a table, are the same (`read?_writeTables`).
-/

namespace Weave.Toml

variable {c : Char} {s rest written : List Char} {name : String} {value : Toml} {depth fuel : ℕ}

/-! ## Values -/

/-- A spelling of a value, from which it is read back where a line ends behind it. -/
structure Spells (written : List Char) (value : Toml) : Prop where
  skipBlanks_append : ∀ rest, skipBlanks (written ++ rest) = written ++ rest
  readValue_append : ∀ {fuel : ℕ}, written.length ≤ fuel → ∀ rest,
    readValue (fuel + 1) nestingLimit (written ++ '\n' :: rest) = some (value, '\n' :: rest)

theorem spells_writeBool (b : Bool) : Spells (writeBool b) (.bool b) where
  skipBlanks_append := by
    intro rest
    cases b <;> rfl
  readValue_append := by
    intro fuel _ rest
    cases b <;> rfl

theorem exists_writeString_eq (text : String) :
    ∃ s, writeString text = '"' :: s ∨ writeString text = '\'' :: s := by
  rw [writeString]
  split
  · exact ⟨_, Or.inl rfl⟩
  · split
    · exact ⟨_, Or.inr rfl⟩
    · split
      · exact ⟨_, Or.inl rfl⟩
      · split
        · exact ⟨_, Or.inr rfl⟩
        · split <;> exact ⟨_, Or.inl rfl⟩

/-- A string is read as a value, whichever notation it has. -/
theorem readValue_writeString (text : String) (hrest : Delimits rest) :
    readValue (fuel + 1) depth (writeString text ++ rest) = some (.string text, rest) := by
  have hread := readString_writeString text hrest
  obtain ⟨s, hs | hs⟩ := exists_writeString_eq text
  · rw [hs, List.cons_append] at hread ⊢
    rw [readValue, hread]
    rfl
  · rw [hs, List.cons_append] at hread ⊢
    rw [readValue, hread]
    rfl

theorem spells_writeString (text : String) : Spells (writeString text) (.string text) where
  skipBlanks_append := by
    intro rest
    obtain ⟨s, hs | hs⟩ := exists_writeString_eq text <;> rw [hs] <;> rfl
  readValue_append := by
    intro fuel _ rest
    exact readValue_writeString text ⟨by simp, by simp⟩

theorem skipFill_writeString (text : String) (rest : List Char) :
    skipFill false (writeString text ++ rest) = writeString text ++ rest := by
  obtain ⟨s, hs | hs⟩ := exists_writeString_eq text <;> rw [hs] <;> rfl

/-- A string that comes next in a list is its next item. -/
theorem readItems_of_skipFill_eq {text : String} (hs : skipFill false s = writeString text ++ rest)
    (hrest : Delimits rest) :
    readItems (fuel + 2) depth s
      = match skipFill false rest with
        | ']' :: rest => some ([.string text], rest)
        | ',' :: rest => (readItems (fuel + 1) depth rest).map fun read =>
            (.string text :: read.1, read.2)
        | _ => none := by
  have hread : readValue (fuel + 1) depth (writeString text ++ rest) = some (.string text, rest) :=
    readValue_writeString text hrest
  have hnext : readItems (fuel + 2) depth s
      = (readValue (fuel + 1) depth (writeString text ++ rest)).bind fun item =>
          match skipFill false item.2 with
          | ']' :: rest => some ([item.1], rest)
          | ',' :: rest => (readItems (fuel + 1) depth rest).bind fun items =>
              some (item.1 :: items.1, items.2)
          | _ => none := by
    obtain ⟨quoted, hquoted | hquoted⟩ := exists_writeString_eq text
    · rw [readItems, hs, hquoted]
      rfl
    · rw [readItems, hs, hquoted]
      rfl
  rw [hnext, hread, Option.bind_some]
  dsimp only
  split
  · rfl
  · rw [Option.map_eq_bind]
    rfl
  · rfl

/-- The lines of the items of a list, and the line that closes it. -/
def writeLines (items : List String) : List Char :=
  items.flatMap (fun item => ' ' :: ' ' :: ' ' :: ' ' :: writeString item ++ [',', '\n']) ++ [']']

theorem readItems_writeLines (items : List String) (hfuel : items.length < fuel)
    (rest : List Char) :
    readItems fuel depth ('\n' :: writeLines items ++ rest) = some (items.map .string, rest) := by
  induction items generalizing fuel with
  | nil =>
    cases fuel with
    | zero => exact absurd hfuel (Nat.not_lt_zero _)
    | succ fuel => rfl
  | cons item items ih =>
    -- an item takes one step for the list and, inside of it, one for the item's value
    rw [List.length_cons] at hfuel
    obtain ⟨fuel, rfl⟩ : ∃ more, fuel = more + 2 := ⟨fuel - 2, by omega⟩
    have hskip : skipFill false ('\n' :: writeLines (item :: items) ++ rest)
        = writeString item ++ (',' :: '\n' :: writeLines items ++ rest) := by
      have hline : '\n' :: writeLines (item :: items) ++ rest
          = '\n' :: ' ' :: ' ' :: ' ' :: ' ' ::
            (writeString item ++ (',' :: '\n' :: writeLines items ++ rest)) := by
        simp only [writeLines, List.flatMap_cons, List.append_assoc, List.cons_append,
          List.nil_append]
      rw [hline]
      exact skipFill_writeString item _
    have hdelimits : Delimits (',' :: '\n' :: writeLines items ++ rest) := ⟨by simp, by simp⟩
    rw [readItems_of_skipFill_eq hskip hdelimits]
    show (readItems (fuel + 1) depth ('\n' :: writeLines items ++ rest)).map _ = _
    rw [ih (by omega)]
    rfl

theorem length_lt_length_writeLines (items : List String) :
    items.length < (writeLines items).length := by
  induction items with
  | nil => exact Nat.zero_lt_one
  | cons item items ih =>
    simp only [writeLines, List.flatMap_cons, List.length_append, List.length_cons] at ih ⊢
    omega

theorem readItems_writeStrings (items : List String) (hfuel : (writeStrings items).length ≤ fuel)
    (rest : List Char) : ∃ s, writeStrings items = '[' :: s ∧
      readItems fuel depth (s ++ rest) = some (items.map .string, rest) := by
  match items with
  | [] =>
    refine ⟨[']'], rfl, ?_⟩
    cases fuel with
    | zero => exact absurd hfuel (by decide)
    | succ fuel => rfl
  | [item] =>
    obtain ⟨fuel, rfl⟩ : ∃ more, fuel = more + 2 := by
      refine ⟨fuel - 2, ?_⟩
      simp only [writeStrings, List.length_append, List.length_cons] at hfuel
      omega
    refine ⟨writeString item ++ [']'], rfl, ?_⟩
    have hskip : skipFill false (writeString item ++ [']'] ++ rest)
        = writeString item ++ ']' :: rest := by
      rw [List.append_assoc]
      exact skipFill_writeString item _
    rw [readItems_of_skipFill_eq hskip ⟨by simp, by simp⟩]
    rfl
  | item :: next :: items =>
    have hlines : writeStrings (item :: next :: items)
        = '[' :: '\n' :: writeLines (item :: next :: items) := rfl
    have hlength := length_lt_length_writeLines (item :: next :: items)
    rw [hlines, List.length_cons, List.length_cons] at hfuel
    exact ⟨_, hlines, readItems_writeLines _ (by omega) rest⟩

theorem spells_writeStrings (items : List String) :
    Spells (writeStrings items) (.array (items.map .string)) where
  skipBlanks_append := by
    intro rest
    match items with
    | [] => rfl
    | [_] => rfl
    | _ :: _ :: _ => rfl
  readValue_append := by
    intro fuel hfuel rest
    obtain ⟨s, hs, hread⟩ := readItems_writeStrings items hfuel ('\n' :: rest)
    rw [hs]
    show (readItems fuel 78 (s ++ '\n' :: rest)).map _ = _
    rw [hread]
    rfl

/-! ## Lines -/

/-- A name that needs no quotes. -/
def IsBare (name : String) : Prop :=
  name.toList ≠ [] ∧ name.toList.all isBareChar

instance (name : String) : Decidable (IsBare name) :=
  inferInstanceAs (Decidable (_ ∧ _))

/-- A text that begins with a name does not begin with a character that no name has. -/
theorem IsBare.append_ne_cons (h : IsBare name) (hc : isBareChar c = false) (rest s : List Char) :
    name.toList ++ rest ≠ c :: s := by
  obtain ⟨hne, hbare⟩ := h
  intro heq
  obtain ⟨d, ds, hname⟩ := List.exists_cons_of_ne_nil hne
  rw [hname] at heq
  have hd : isBareChar d := List.all_eq_true.1 hbare d (hname ▸ List.mem_cons_self)
  rw [List.head_eq_of_cons_eq heq, hc] at hd
  cases hd

theorem takeWhile_of_head {p : Char → Bool} (h : ∀ c ∈ s.head?, p c = false) :
    s.takeWhile p = [] := by
  cases s with
  | nil => rfl
  | cons c s => rw [List.takeWhile_cons, h c rfl]; rfl

theorem dropWhile_of_head {p : Char → Bool} (h : ∀ c ∈ s.head?, p c = false) :
    s.dropWhile p = s := by
  cases s with
  | nil => rfl
  | cons c s => rw [List.dropWhile_cons, h c rfl]; rfl

/-- A name is read up to its end. -/
theorem readName_bare (h : IsBare name) (hrest : ∀ c ∈ rest.head?, isBareChar c = false) :
    readName (name.toList ++ rest) = some (name, rest) := by
  have ⟨hne, hbare⟩ := h
  have htake : (name.toList ++ rest).takeWhile isBareChar = name.toList := by
    rw [List.takeWhile_append_of_pos (List.all_eq_true.1 hbare), takeWhile_of_head hrest,
      List.append_nil]
  have hdrop : (name.toList ++ rest).dropWhile isBareChar = rest := by
    rw [List.dropWhile_append_of_pos (List.all_eq_true.1 hbare), dropWhile_of_head hrest]
  rw [readName]
  · rw [htake, hdrop]
    split
    · next hnil => exact absurd hnil hne
    · rw [String.ofList_toList]
  · exact h.append_ne_cons (by decide) rest
  · exact h.append_ne_cons (by decide) rest

theorem skipBlanks_bare (h : IsBare name) (rest : List Char) :
    skipBlanks (name.toList ++ rest) = name.toList ++ rest := by
  refine dropWhile_of_head fun c hc => ?_
  have hcons := (List.cons_head?_tail hc).symm
  rw [Bool.or_eq_false_iff, beq_eq_false_iff_ne, beq_eq_false_iff_ne]
  constructor
  · rintro rfl
    exact h.append_ne_cons (by decide) _ _ hcons
  · rintro rfl
    exact h.append_ne_cons (by decide) _ _ hcons

/-- A key of one part. -/
theorem readKey_bare (h : IsBare name) {room : ℕ} (hrest : ∀ c ∈ rest.head?, isBareChar c = false)
    (hskip : skipBlanks rest = c :: s) (hdot : c ≠ '.') :
    readKey (room + 1) (name.toList ++ rest) = some ([], name, c :: s) := by
  rw [readKey, skipBlanks_bare h, readName_bare h hrest, Option.bind_eq_bind, Option.bind_some]
  dsimp only
  rw [hskip]
  split
  · next heq => exact absurd (List.head_eq_of_cons_eq heq) hdot
  · rfl

/-- A line that begins with a name is not empty. -/
theorem afterLine?_bare (h : IsBare name) (rest : List Char) :
    afterLine? (name.toList ++ rest) = none := by
  have hcomment : isBareChar '#' = false := by decide
  rw [afterLine?, skipBlanks_bare h]
  split
  · next heq =>
    split at heq
    · next hstart => exact absurd hstart (h.append_ne_cons hcomment _ _)
    · exact absurd (List.append_eq_nil_iff.1 heq).1 h.1
  · next heq =>
    split at heq
    · next hstart => exact absurd hstart (h.append_ne_cons hcomment _ _)
    · exact absurd heq (h.append_ne_cons (by decide) _ _)
  · next heq =>
    split at heq
    · next hstart => exact absurd hstart (h.append_ne_cons hcomment _ _)
    · exact absurd heq (h.append_ne_cons (by decide) _ _)
  · rfl

/-- The entries that are read from a text, given fuel for every character. -/
def ReadsAs (s : List Char) (entries : List Entry) : Prop :=
  ∀ fuel, s.length < fuel → readEntries fuel s = some entries

variable {entries : List Entry}

theorem ReadsAs.of_succ
    (h : ∀ fuel, s.length ≤ fuel → readEntries (fuel + 1) s = some entries) :
    ReadsAs s entries := by
  intro fuel hfuel
  cases fuel with
  | zero => exact absurd hfuel (Nat.not_lt_zero _)
  | succ fuel => exact h fuel (Nat.le_of_lt_succ hfuel)

theorem readsAs_nil : ReadsAs [] [] :=
  .of_succ fun _ _ => rfl

/-- An empty line gives nothing. -/
theorem ReadsAs.newline (h : ReadsAs s entries) : ReadsAs ('\n' :: s) entries :=
  .of_succ fun fuel hfuel => h fuel hfuel

/-- A header gives its entry. -/
theorem ReadsAs.header (h : ReadsAs s entries) (hname : IsBare name) :
    ReadsAs ('[' :: name.toList ++ [']', '\n'] ++ s) (.header [] name :: entries) := by
  refine .of_succ fun fuel hfuel => ?_
  have hkey : readKey nestingLimit (name.toList ++ ']' :: '\n' :: s)
      = some ([], name, ']' :: '\n' :: s) :=
    readKey_bare hname (fun c hc => by cases hc; decide) rfl (by decide)
  have hs : s.length < fuel := by
    simp only [List.length_append, List.length_cons] at hfuel
    omega
  have hline : '[' :: name.toList ++ [']', '\n'] ++ s
      = '[' :: (name.toList ++ ']' :: '\n' :: s) := by
    simp only [List.append_assoc, List.cons_append, List.nil_append]
  have hopen : skipBlanks ('[' :: (name.toList ++ ']' :: '\n' :: s))
      = '[' :: (name.toList ++ ']' :: '\n' :: s) := rfl
  rw [hline, readEntries, hopen]
  split
  · next heq => cases heq
  · -- it is not the header of an item of a list of tables
    next heq => exact absurd (List.tail_eq_of_cons_eq heq) (hname.append_ne_cons (by decide) _ _)
  · next heq =>
    rw [← List.tail_eq_of_cons_eq heq, hkey]
    show (readEntries fuel s).bind _ = _
    rw [h fuel hs]
    rfl
  · next hnot => exact absurd rfl (hnot _)

/-- A pair gives its entry. -/
theorem ReadsAs.pair (h : ReadsAs s entries) (hname : IsBare name) (hvalue : Spells written value) :
    ReadsAs (writePair name written ++ s) (.value [] name value :: entries) := by
  refine .of_succ fun fuel hfuel => ?_
  have hline : writePair name written ++ s
      = name.toList ++ ' ' :: '=' :: ' ' :: (written ++ '\n' :: s) := by
    simp only [writePair, List.append_assoc]
    rfl
  have hkey : readKey nestingLimit (writePair name written ++ s)
      = some ([], name, '=' :: ' ' :: (written ++ '\n' :: s)) := by
    rw [hline]
    exact readKey_bare hname (fun c hc => by cases hc; decide) rfl (by decide)
  have hopen : skipBlanks (writePair name written ++ s) = writePair name written ++ s := by
    rw [hline]
    exact skipBlanks_bare hname _
  have hread : readValue ('=' :: ' ' :: (written ++ '\n' :: s)).length nestingLimit
      (skipBlanks (' ' :: (written ++ '\n' :: s))) = some (value, '\n' :: s) := by
    have hskip : skipBlanks (' ' :: (written ++ '\n' :: s)) = written ++ '\n' :: s :=
      hvalue.skipBlanks_append _
    rw [hskip]
    refine hvalue.readValue_append ?_ s
    simp only [List.length_cons, List.length_append]
    omega
  have hs : s.length < fuel := by
    rw [hline] at hfuel
    simp only [List.length_cons, List.length_append] at hfuel
    omega
  rw [readEntries, hopen]
  split
  · next heq => exact absurd (List.append_eq_nil_iff.1 (hline.symm.trans heq)).1 hname.1
  · next heq => exact absurd (hline.symm.trans heq) (hname.append_ne_cons (by decide) _ _)
  · next heq => exact absurd (hline.symm.trans heq) (hname.append_ne_cons (by decide) _ _)
  · rw [hkey, hline, afterLine?_bare hname]
    show Option.bind (readValue ('=' :: ' ' :: (written ++ '\n' :: s)).length nestingLimit
      (skipBlanks (' ' :: (written ++ '\n' :: s)))) _ = _
    rw [hread]
    show (readEntries fuel s).bind _ = _
    rw [h fuel hs]
    rfl

/-! ## Tables -/

/-- A pair as it is written and the field that it stands for. -/
inductive SpellsPair : String × List Char → String × Toml → Prop
  | mk {name : String} {written : List Char} {value : Toml} (hname : IsBare name)
      (hvalue : Spells written value) : SpellsPair (name, written) (name, value)

/-- A table as it is written and the fields that it stands for. -/
inductive SpellsTable : String × List (String × List Char) → String × List (String × Toml) → Prop
  | mk {name : String} {pairs : List (String × List Char)} {fields : List (String × Toml)}
      (hname : IsBare name) (hpairs : List.Forall₂ SpellsPair pairs fields) :
      SpellsTable (name, pairs) (name, fields)

/-- The entries of a table. -/
def tableEntries (table : String × List (String × Toml)) : List Entry :=
  .header [] table.1 :: table.2.map fun field => .value [] field.1 field.2

theorem ReadsAs.table (h : ReadsAs s entries) {table : String × List (String × List Char)}
    {fields : String × List (String × Toml)} (htable : SpellsTable table fields) :
    ReadsAs (writeTable table.1 table.2 ++ s) (tableEntries fields ++ entries) := by
  obtain @⟨name, pairs, fields, hname, hpairs⟩ := htable
  have hrest : ReadsAs (pairs.flatMap (fun pair => writePair pair.1 pair.2) ++ s)
      (fields.map (fun field => .value [] field.1 field.2) ++ entries) := by
    induction hpairs with
    | nil => exact h
    | cons hpair _ ih =>
      obtain ⟨hbare, hvalue⟩ := hpair
      rw [List.flatMap_cons, List.append_assoc]
      exact ih.pair hbare hvalue
  rw [writeTable, List.append_assoc]
  exact hrest.header hname

/-- The text of tables, with an empty line between each two. -/
def writeTables (tables : List (String × List (String × List Char))) : List Char :=
  ((tables.map fun (name, pairs) => writeTable name pairs).intersperse ['\n']).flatten

/-- Tables are read one after the other, each with its fields. -/
theorem readsAs_writeTables {tables : List (String × List (String × List Char))}
    {values : List (String × List (String × Toml))} (h : List.Forall₂ SpellsTable tables values) :
    ReadsAs (writeTables tables) (values.flatMap tableEntries) := by
  induction h with
  | nil => exact readsAs_nil
  | @cons table fields tables values htable hrest ih =>
    cases tables with
    | nil =>
      have hread := readsAs_nil.table htable
      cases hrest
      rw [List.append_nil] at hread
      simpa [writeTables] using hread
    | cons next tables =>
      have hwritten : writeTables (table :: next :: tables)
          = writeTable table.1 table.2 ++ '\n' :: writeTables (next :: tables) := by
        simp [writeTables]
      rw [hwritten, List.flatMap_cons]
      exact ih.newline.table htable

/-! ## Building the table -/

theorem setField_append {fields : Fields} (h : fields.lookup name = none) (node : Node)
    (rest : Fields) : setField name node (fields ++ rest) = fields ++ setField name node rest := by
  induction fields with
  | nil => rfl
  | cons field fields ih =>
    rw [List.lookup_eq_none_iff, List.forall_mem_cons, ← List.lookup_eq_none_iff] at h
    have hne : field.1 ≠ name := fun heq => by simp [heq] at h
    rw [List.cons_append, setField, if_neg hne, ih h.2, List.cons_append]

theorem lookup_append_singleton {fields : Fields} (h : fields.lookup name = none) (node : Node) :
    (fields ++ [(name, node)]).lookup name = some node := by
  rw [List.lookup_append, h, Option.none_or, List.lookup_cons_self]

/-- The field of a document that a table makes. -/
def tableField (table : String × List (String × Toml)) : String × Node :=
  (table.1, .table .header (table.2.map fun field => (field.1, .value field.2)))

/-- A header with a new name makes an empty table. -/
theorem add_header {fields : Fields} (h : fields.lookup name = none) (current : List String) :
    Document.add ⟨fields, current⟩ (.header [] name)
      = some ⟨fields ++ [tableField (name, [])], [name]⟩ := by
  have happend := setField_append h (.table .header []) []
  rw [List.append_nil] at happend
  rw [Document.add, within, h]
  show some _ = _
  rw [happend]
  rfl

theorem addValue_nil {fields : Fields} (h : fields.lookup name = none) (value : Toml) :
    addValue [] name value .header fields = some (fields ++ [(name, .value value)]) := by
  have happend := setField_append h (.value value) []
  rw [List.append_nil] at happend
  rw [addValue, within, if_neg (by decide), h]
  exact congrArg some happend

/-- A pair with a new name goes into the table of the last header. -/
theorem add_value {fields inner : Fields} (h : fields.lookup name = none) {key : String}
    (hkey : inner.lookup key = none) (value : Toml) :
    Document.add ⟨fields ++ [(name, .table .header inner)], [name]⟩ (.value [] key value)
      = some ⟨fields ++ [(name, .table .header (inner ++ [(key, .value value)]))], [name]⟩ := by
  have hset : setField name (.table .header (inner ++ [(key, .value value)]))
        (fields ++ [(name, .table .header inner)])
      = fields ++ [(name, .table .header (inner ++ [(key, .value value)]))] := by
    rw [setField_append h, setField, if_pos rfl]
  rw [Document.add, within, lookup_append_singleton h]
  dsimp only
  rw [if_neg (by decide), within, addValue_nil hkey]
  show some _ = _
  rw [hset]

/-- A name that is new stays new when another one is added. -/
theorem lookup_append_of_ne {fields : Fields} (h : fields.lookup name = none) {other : String}
    (hne : name ≠ other) (node : Node) : (fields ++ [(other, node)]).lookup name = none := by
  rw [List.lookup_append, h, Option.none_or]
  exact List.lookup_eq_none_iff.2 (by simpa using hne)

/-- The pairs behind a header go into its table, in their order. -/
theorem foldlM_pairs {fields : Fields} (h : fields.lookup name = none) (inner : Fields)
    {pairs : List (String × Toml)} (hkeys : (pairs.map Prod.fst).Nodup)
    (hinner : ∀ pair ∈ pairs, inner.lookup pair.1 = none) :
    (pairs.map fun pair => Entry.value [] pair.1 pair.2).foldlM Document.add
        ⟨fields ++ [(name, .table .header inner)], [name]⟩
      = some ⟨fields ++ [(name, .table .header
          (inner ++ pairs.map fun pair => (pair.1, .value pair.2)))], [name]⟩ := by
  induction pairs generalizing inner with
  | nil => rw [List.map_nil, List.map_nil, List.append_nil, List.foldlM_nil]; rfl
  | cons pair pairs ih =>
    obtain ⟨hnot, hkeys⟩ := List.nodup_cons.1 hkeys
    obtain ⟨hpair, hpairs⟩ := List.forall_mem_cons.1 hinner
    have hnext : ∀ other ∈ pairs,
        (inner ++ [(pair.1, Node.value pair.2)]).lookup other.1 = none := by
      intro other hother
      refine lookup_append_of_ne (hpairs other hother) (fun heq => hnot ?_) _
      rw [← heq]
      exact List.mem_map_of_mem hother
    rw [List.map_cons, List.foldlM_cons, add_value h hpair]
    refine (ih _ hkeys hnext).trans ?_
    rw [List.append_assoc]
    rfl

/-- The entries of a table add its field. -/
theorem foldlM_tableEntries {fields : Fields} {table : String × List (String × Toml)}
    (h : fields.lookup table.1 = none) (hkeys : (table.2.map Prod.fst).Nodup)
    (current : List String) :
    (tableEntries table).foldlM Document.add ⟨fields, current⟩
      = some ⟨fields ++ [tableField table], [table.1]⟩ := by
  rw [tableEntries, List.foldlM_cons, add_header h]
  exact foldlM_pairs h [] hkeys fun _ _ => rfl

/-- Tables with different names are all added, and none of them gets in the way of another. -/
theorem foldlM_tables {tables : List (String × List (String × Toml))}
    (hnames : (tables.map Prod.fst).Nodup)
    (hkeys : ∀ table ∈ tables, (table.2.map Prod.fst).Nodup) {fields : Fields}
    (h : ∀ table ∈ tables, fields.lookup table.1 = none) (current : List String) :
    ∃ current', (tables.flatMap tableEntries).foldlM Document.add ⟨fields, current⟩
      = some ⟨fields ++ tables.map tableField, current'⟩ := by
  induction tables generalizing fields current with
  | nil => exact ⟨current, by rw [List.map_nil, List.append_nil]; rfl⟩
  | cons table tables ih =>
    obtain ⟨hnot, hnames⟩ := List.nodup_cons.1 hnames
    obtain ⟨hkeystable, hkeys⟩ := List.forall_mem_cons.1 hkeys
    obtain ⟨htable, htables⟩ := List.forall_mem_cons.1 h
    have hnext : ∀ other ∈ tables, (fields ++ [tableField table]).lookup other.1 = none := by
      intro other hother
      refine lookup_append_of_ne (htables other hother) (fun heq => hnot ?_) _
      rw [← heq]
      exact List.mem_map_of_mem hother
    obtain ⟨current', hread⟩ := ih hnames hkeys hnext [table.1]
    refine ⟨current', ?_⟩
    rw [List.flatMap_cons, List.foldlM_append, foldlM_tableEntries htable hkeystable]
    refine hread.trans ?_
    rw [List.append_assoc, List.map_cons, List.singleton_append]

theorem fieldsToToml_values (pairs : List (String × Toml)) :
    fieldsToToml (pairs.map fun pair => (pair.1, .value pair.2)) = pairs := by
  induction pairs with
  | nil => rfl
  | cons pair pairs ih => rw [List.map_cons, fieldsToToml, Node.toToml, ih]

theorem fieldsToToml_tables (tables : List (String × List (String × Toml))) :
    fieldsToToml (tables.map tableField) = tables.map fun table => (table.1, .table table.2) := by
  induction tables with
  | nil => rfl
  | cons table tables ih =>
    rw [List.map_cons, tableField, fieldsToToml, Node.toToml, fieldsToToml_values, ih,
      List.map_cons]

/-- Tables are read back from their text if their names are different, and so are the names in each
of them. -/
theorem read?_writeTables {tables : List (String × List (String × List Char))}
    {values : List (String × List (String × Toml))} (h : List.Forall₂ SpellsTable tables values)
    (hnames : (values.map Prod.fst).Nodup)
    (hkeys : ∀ table ∈ values, (table.2.map Prod.fst).Nodup) :
    read? (String.ofList (writeTables tables))
      = some (values.map fun table => (table.1, .table table.2)) := by
  have hmark : dropMark (writeTables tables) = writeTables tables := by
    cases h with
    | nil => rfl
    | @cons _ _ tables _ _ _ => cases tables <;> rfl
  obtain ⟨current, hbuild⟩ : ∃ current, (values.flatMap tableEntries).foldlM Document.add {}
      = some ⟨values.map tableField, current⟩ :=
    foldlM_tables hnames hkeys (fun _ _ => rfl) []
  rw [read?, String.toList_ofList, hmark, readsAs_writeTables h _ (Nat.lt_succ_self _)]
  show ((values.flatMap tableEntries).foldlM Document.add {}).bind _ = _
  rw [hbuild]
  exact congrArg some (fieldsToToml_tables values)

end Weave.Toml
