import Mathlib.Data.List.Forall2
import Weave.Proofs.Notebook.Format

/-!
# Sources of cells

A source has many spellings in a notebook file: it may stand there as one string, or as any list of
strings that make it (`Spells`). Writing chooses the list of its lines, which is the only one that
keeps line ends where they belong. Reading takes all spellings alike: another source may be put in
the place of any cell's source (`setCellSource`), and the notebook that is read has the text that
this one spells there, and is otherwise the same (`ofTree?_setCellSource`).
-/

namespace Weave

open Json (Tree)

/-! ## Spellings -/

namespace Json.Tree

/-- The spellings of a source: the string itself, or strings that make it. -/
inductive Spells (source : String) : Tree → Prop
  | text : Spells source (.string (some source))
  | list (parts : List String) (h : String.join parts = source) :
      Spells source (.array (parts.map fun part => .string (some part)))

theorem text?_eq_some_iff {tree : Tree} {text : String} :
    tree.text? = some text ↔ tree = .string (some text) := by
  cases tree <;> simp [text?]

theorem items?_eq_some_iff {tree : Tree} {items : List Tree} :
    tree.items? = some items ↔ tree = .array items := by
  cases tree <;> simp [items?]

/-- A list gives texts exactly if all its items are strings that make one each. -/
theorem mapM_text?_eq_some_iff {items : List Tree} {parts : List String} :
    items.mapM text? = some parts ↔ items = parts.map fun part => .string (some part) := by
  induction items generalizing parts with
  | nil => cases parts <;> simp
  | cons item items ih =>
    rw [List.mapM_cons]
    cases parts with
    | nil => simp [Option.bind_eq_some_iff]
    | cons part parts =>
      simp [Option.bind_eq_some_iff, text?_eq_some_iff, ih]

end Json.Tree

/-- Exactly the spellings of a text are read as a source with this text. -/
theorem Cell.readSource?_eq_some_iff {tree : Tree} {source : String} :
    readSource? tree = some source ↔ tree.Spells source := by
  constructor
  · intro h
    unfold readSource? at h
    split at h
    · rw [h]
      exact .text
    · next items =>
      obtain ⟨parts, hparts, rfl⟩ := Option.map_eq_some_iff.1 h
      rw [Json.Tree.mapM_text?_eq_some_iff.1 hparts]
      exact .list parts rfl
    · cases h
  · rintro (_ | ⟨parts, rfl⟩)
    · rfl
    · rw [readSource?, Json.Tree.mapM_text?_eq_some_iff.2 rfl]
      rfl

/-! ## Records with another value -/

/-- A list is read value by value. -/
theorem mapM_eq_some_iff_forall₂ {α β : Type} {read : α → Option β} {items : List α}
    {values : List β} :
    items.mapM read = some values ↔
      List.Forall₂ (fun item value => read item = some value) items values := by
  induction items generalizing values with
  | nil => simp [List.forall₂_nil_left_iff, eq_comm]
  | cons item items ih =>
    rw [List.mapM_cons, List.forall₂_cons_left_iff]
    simp only [Option.bind_eq_bind, Option.bind_eq_some_iff, Option.pure_def, Option.some_inj, ih,
      exists_and_left, eq_comm (b := values)]

/-- If one item is changed, then the value that is read for it changes accordingly. -/
theorem mapM_modify {α β : Type} {read : α → Option β} {items : List α} {values : List β}
    (h : items.mapM read = some values) {f : α → α} {g : β → β}
    (hread : ∀ item value, read item = some value → read (f item) = some (g value)) (i : ℕ) :
    (items.modify i f).mapM read = some (values.modify i g) := by
  rw [mapM_eq_some_iff_forall₂] at h ⊢
  induction h generalizing i with
  | nil => cases i <;> exact .nil
  | cons hfirst hrest ih =>
    cases i with
    | zero => exact .cons (hread _ _ hfirst) hrest
    | succ i => exact .cons hfirst (ih i)

/-- If one of several different items is read otherwise, then only its value is another one. -/
theorem forall₂_modify {α β : Type} {R R' : α → β → Prop} {items : List α} {values : List β}
    (h : List.Forall₂ R items values) (hitems : items.Nodup) {i : ℕ} {item : α}
    (hi : items[i]? = some item) {g : β → β} (hitem : ∀ value, R item value → R' item (g value))
    (hother : ∀ other ≠ item, ∀ value, R other value → R' other value) :
    List.Forall₂ R' items (values.modify i g) := by
  induction h generalizing i with
  | nil => cases hi
  | @cons first value items values hfirst hrest ih =>
    obtain ⟨hnot, hitems⟩ := List.nodup_cons.1 hitems
    cases i with
    | zero =>
      obtain rfl : first = item := Option.some.inj hi
      have hne : ∀ other ∈ items, other ≠ first := by
        rintro other hmem rfl
        exact hnot hmem
      exact .cons (hitem value hfirst) <|
        ((List.forall₂_and_left _ _).2 ⟨hne, hrest⟩).imp fun _ _ h => hother _ h.1 _ h.2
    | succ i =>
      have hne : first ≠ item := by
        rintro rfl
        exact hnot (List.mem_of_getElem? hi)
      exact .cons (hother first hne value hfirst) (ih hitems hi)

namespace Json.Tree

/-- Fields, with other values under a name. -/
def modifyFields (name : String) (f : Tree → Tree) (fields : List (Option String × Tree)) :
    List (Option String × Tree) :=
  fields.map fun field => if field.1 = some name then (field.1, f field.2) else field

/-- A record with another value under a name, which is its value at position `i` if the record is a
list. -/
def modifyField (name : String) (i : ℕ) (f : Tree → Tree) : Tree → Tree
  | .object fields => .object (modifyFields name f fields)
  | .array items => .array (items.modify i f)
  | tree => tree

/-- What fields of one name give: a value, or none if there is no such field. -/
def single? : List (String × Tree) → Option (Option Tree)
  | [] => some none
  | [field] => some (some field.2)
  | _ => none

/-- The values of an object's fields are those of its keys, which have to be text. -/
theorem record?_object_eq_some_iff {fields : List (Option String × Tree)} {names : List String}
    {values : List (Option Tree)} :
    (object fields).record? names = some values ↔
      ∃ named : List (String × Tree), fields = named.map (fun field => (some field.1, field.2)) ∧
        List.Forall₂ (fun name value => single? (named.filter (·.1 = name)) = some value)
          names values := by
  have hkeys (named : List (String × Tree)) :
      fields.mapM (fun field => field.1.map (·, field.2)) = some named ↔
        fields = named.map fun field => (some field.1, field.2) := by
    rw [mapM_eq_some_iff_forall₂]
    constructor
    · intro h
      induction h with
      | nil => rfl
      | @cons field _ _ _ hfield _ ih =>
        obtain ⟨key, hkey, rfl⟩ := Option.map_eq_some_iff.1 hfield
        rw [List.map_cons, ← ih, ← hkey]
    · rintro rfl
      rw [List.forall₂_map_left_iff]
      exact List.forall₂_same.2 fun field _ => rfl
  show Option.bind (fields.mapM fun field => field.1.map (·, field.2)) (fun named =>
    names.mapM fun name => single? (named.filter (·.1 = name))) = some values ↔ _
  simp only [Option.bind_eq_some_iff, hkeys, mapM_eq_some_iff_forall₂]

/-- Only the value of the changed name is another one. -/
theorem single?_modify (name other : String) (f : Tree → Tree) (fields : List (String × Tree)) :
    single? ((fields.map fun field =>
        if field.1 = name then (field.1, f field.2) else field).filter (·.1 = other))
      = (single? (fields.filter (·.1 = other))).map fun value? =>
          if other = name then value?.map f else value? := by
  have hkey (field : String × Tree) :
      (if field.1 = name then (field.1, f field.2) else field).1 = field.1 := by
    split <;> rfl
  have hfilter : (fields.map fun field =>
        if field.1 = name then (field.1, f field.2) else field).filter (·.1 = other)
      = (fields.filter (·.1 = other)).map fun field =>
          if field.1 = name then (field.1, f field.2) else field := by
    rw [List.filter_map]
    refine congrArg (List.map _) (List.filter_congr fun field _ => ?_)
    rw [Function.comp_apply, hkey]
  have hother : ∀ field ∈ fields.filter (·.1 = other), field.1 = other := fun field hfield =>
    of_decide_eq_true (List.mem_filter.1 hfield).2
  rw [hfilter]
  generalize fields.filter (·.1 = other) = found at hother
  rcases found with _ | ⟨field, _ | ⟨next, more⟩⟩
  · simp [single?]
  · have hfield := hother field List.mem_cons_self
    by_cases hname : other = name
    · simp [single?, hfield, hname]
    · simp [single?, hfield, hname]
  · rfl

/-- Of a record with another value under a name, only this value is read otherwise. -/
theorem record?_modifyField {tree : Tree} {names : List String} (hnames : names.Nodup) {i : ℕ}
    {name : String} (hi : names[i]? = some name) {values : List (Option Tree)}
    (h : tree.record? names = some values) (f : Tree → Tree) :
    (tree.modifyField name i f).record? names = some (values.modify i (Option.map f)) := by
  cases tree with
  | object fields =>
    obtain ⟨named, rfl, hvalues⟩ := record?_object_eq_some_iff.1 h
    refine record?_object_eq_some_iff.2 ⟨named.map fun field =>
      if field.1 = name then (field.1, f field.2) else field, ?_, ?_⟩
    · rw [modifyFields, List.map_map, List.map_map]
      refine List.map_congr_left fun field _ => ?_
      by_cases hfield : field.1 = name <;> simp [hfield]
    · refine forall₂_modify hvalues hnames hi (fun value hvalue => ?_)
        fun other hne value hvalue => ?_
      · rw [single?_modify, hvalue, Option.map_some, if_pos rfl]
      · rw [single?_modify, hvalue, Option.map_some, if_neg hne]
  | array items =>
    have hmap : (items.modify i f).map some = (items.map some).modify i (Option.map f) := by
      refine List.ext_getElem? fun j => ?_
      rw [List.getElem?_map, List.getElem?_modify, List.getElem?_modify, List.getElem?_map]
      cases items[j]? <;> by_cases hj : i = j <;> simp [hj]
    rw [record?] at h
    rw [modifyField, record?, List.length_modify, hmap]
    split at h
    · next hlength =>
      cases h
      rw [if_pos hlength]
    · cases h
  | _ => cases h

/-! ## Cells with another source -/

/-- A cell with another source: the value of its field or, if the cell is a list, its last value. -/
def setSource (cell source : Tree) : Tree :=
  match cell with
  | .object fields => .object (modifyFields "source" (fun _ => source) fields)
  | .array items => .array (items.modify (items.length - 1) fun _ => source)
  | _ => cell

variable {tree source : Tree} {depth : ℕ}

/-- The source is the last field of a cell, and the only one that is set. -/
theorem record?_setSource {names : List String} (hnames : names.Nodup)
    (hlast : names[names.length - 1]? = some "source") {values : List (Option Tree)}
    (h : tree.record? names = some values) :
    (tree.setSource source).record? names
      = some (values.modify (names.length - 1) (Option.map fun _ => source)) := by
  -- a list that is read as a record has as many values as the record has names
  have hset : tree.setSource source
      = tree.modifyField "source" (names.length - 1) fun _ => source := by
    cases tree with
    | array items =>
      rw [record?] at h
      split at h
      · next hlength => rw [setSource, modifyField, hlength]
      · cases h
    | _ => rfl
  rw [hset]
  exact record?_modifyField hnames hlast h _

/-- A list has a value exactly if all its items have one. -/
theorem isSome_values?_iff {items : List Tree} :
    (values? depth items).isSome ↔ ∀ item ∈ items, (item.value? depth).isSome := by
  induction items with
  | nil => simp [values?]
  | cons item items ih =>
    rw [List.forall_mem_cons, ← ih, values?]
    cases item.value? depth <;> cases values? depth items <;> simp

theorem isSome_fieldValues?_iff {fields : List (Option String × Tree)} :
    (fieldValues? depth fields).isSome ↔
      ∀ field ∈ fields, field.1.isSome ∧ (field.2.value? depth).isSome := by
  induction fields with
  | nil => simp [fieldValues?]
  | cons field fields ih =>
    obtain ⟨key?, value⟩ := field
    rw [List.forall_mem_cons, ← ih, fieldValues?]
    cases key? <;> cases value.value? depth <;> cases fieldValues? depth fields <;> simp

/-- A spelling of a source has a value, which takes one container at most. -/
theorem Spells.isSome_value? {text : String} (h : tree.Spells text) :
    (tree.value? (depth + 1)).isSome := by
  cases h with
  | text => rfl
  | list parts =>
    rw [value?, Option.isSome_map, isSome_values?_iff]
    intro item hitem
    obtain ⟨part, -, rfl⟩ := List.mem_map.1 hitem
    rfl

/-- A cell stays a value if it gets another source that is one. -/
theorem isSome_value?_setSource (hsource : (source.value? depth).isSome)
    (h : (tree.value? (depth + 1)).isSome) :
    ((tree.setSource source).value? (depth + 1)).isSome := by
  cases tree with
  | object fields =>
    rw [value?, Option.isSome_map, isSome_fieldValues?_iff] at h
    rw [setSource, value?, Option.isSome_map, isSome_fieldValues?_iff]
    intro field hfield
    obtain ⟨old, hold, rfl⟩ := List.mem_map.1 hfield
    split
    · exact ⟨(h old hold).1, hsource⟩
    · exact h old hold
  | array items =>
    rw [value?, Option.isSome_map, isSome_values?_iff] at h
    rw [setSource, value?, Option.isSome_map, isSome_values?_iff]
    intro item hitem
    obtain ⟨i, hi⟩ := List.getElem?_of_mem hitem
    rw [List.getElem?_modify] at hi
    obtain ⟨old, hold, rfl⟩ := Option.map_eq_some_iff.1 hi
    split
    · exact hsource
    · exact h old (List.mem_of_getElem? hold)
  | _ => exact h

/-- Fields are set apart by their keys, which stay. -/
theorem partition_modifyFields (name : String) (f : Tree → Tree) (key? : Option String)
    (fields : List (Option String × Tree)) :
    (modifyFields name f fields).partition (·.1 = key?)
      = Prod.map (modifyFields name f) (modifyFields name f) (fields.partition (·.1 = key?)) := by
  have hfilter (p : Option String → Bool) :
      (modifyFields name f fields).filter (fun field => p field.1)
        = modifyFields name f (fields.filter fun field => p field.1) := by
    rw [modifyFields, List.filter_map]
    refine congrArg (List.map _) (List.filter_congr fun field _ => ?_)
    rw [Function.comp_apply]
    split <;> rfl
  rw [List.partition_eq_filter_filter, List.partition_eq_filter_filter, Prod.map]
  exact Prod.ext (hfilter fun other => other = key?) (hfilter fun other => !decide (other = key?))

/-- The source is not the tag, so that the body of a cell gets the other source. -/
theorem tagged?_setSource {tag : String} {body : Tree}
    (h : tree.tagged? "cell_type" = some (tag, body)) (hbody : body ≠ .array []) :
    (tree.setSource source).tagged? "cell_type" = some (tag, body.setSource source) := by
  unfold tagged? at h
  split at h
  · next fields =>
    split at h
    · next key? tag' rest hparts =>
      cases h
      have hkey : key? = some "cell_type" := by
        rw [List.partition_eq_filter_filter] at hparts
        have hmem : (key?, string (some tag)) ∈ fields.filter (·.1 = some "cell_type") := by
          rw [(Prod.mk.inj hparts).1]
          exact List.mem_cons_self
        exact of_decide_eq_true (List.mem_filter.1 hmem).2
      rw [setSource, tagged?, partition_modifyFields, hparts, hkey]
      rfl
    · cases h
  · next first rest =>
    -- a list has its tag in front, which would be its last value if it were the only one
    cases h
    cases rest with
    | nil => exact absurd rfl hbody
    | cons next rest => rfl
  · cases h

end Json.Tree

namespace Cell

/-- A cell with this source. -/
def withSource (source : String) : Cell → Cell
  | .markdown metadata _ => .markdown metadata source
  | .code metadata _ count? outputs => .code metadata source count? outputs

/-- A cell has the source that it has. -/
theorem withSource_source (cell : Cell) : cell.withSource cell.source = cell := by
  cases cell <;> rfl

variable {body tree new : Tree} {text : String} {cell : Cell} {depth : ℕ}

/-- Prose with another source is read as such, whatever else the cell holds. -/
theorem readMarkdown?_setSource (hnew : new.Spells text) (h : readMarkdown? body = some cell) :
    readMarkdown? (body.setSource new) = some (cell.withSource text) := by
  unfold readMarkdown? at h
  obtain ⟨values, hvalues, h⟩ := Option.bind_eq_some_iff.1 h
  split at h
  · next metadata? source =>
    obtain ⟨metadata, hmetadata, h⟩ := Option.bind_eq_some_iff.1 h
    obtain ⟨old, -, h⟩ := Option.bind_eq_some_iff.1 h
    cases h
    have hset : (body.setSource new).record? ["metadata", "source"] = some [metadata?, some new] :=
      Json.Tree.record?_setSource (by decide) rfl hvalues
    rw [readMarkdown?, hset]
    show (readMetadata? metadata?).bind _ = _
    rw [hmetadata, Option.bind_some, readSource?_eq_some_iff.2 hnew]
    rfl
  · cases h

theorem readCode?_setSource (hnew : new.Spells text) (h : readCode? body = some cell) :
    readCode? (body.setSource new) = some (cell.withSource text) := by
  unfold readCode? at h
  obtain ⟨values, hvalues, h⟩ := Option.bind_eq_some_iff.1 h
  split at h
  · next count? metadata? outputs? source =>
    obtain ⟨metadata, hmetadata, h⟩ := Option.bind_eq_some_iff.1 h
    obtain ⟨old, -, h⟩ := Option.bind_eq_some_iff.1 h
    have hset : (body.setSource new).record? ["execution_count", "metadata", "outputs", "source"]
        = some [count?, metadata?, outputs?, some new] :=
      Json.Tree.record?_setSource (by decide) rfl hvalues
    obtain ⟨count, hcount, h⟩ := Option.bind_eq_some_iff.1 h
    obtain ⟨outputs, houtputs, h⟩ := Option.bind_eq_some_iff.1 h
    cases h
    rw [readCode?, hset]
    show (readMetadata? metadata?).bind _ = _
    rw [hmetadata, Option.bind_some, readSource?_eq_some_iff.2 hnew]
    show (readCount? count?).bind _ = _
    rw [hcount, Option.bind_some, houtputs]
    rfl
  · cases h

/-- With another source in its place, a cell is read with the text that this one spells, and
otherwise as before. -/
theorem read?_setSource (hnew : new.Spells text) (h : read? (depth + 2) tree = some cell) :
    read? (depth + 2) (tree.setSource new) = some (cell.withSource text) := by
  unfold read? at h
  obtain ⟨value, hvalue, h⟩ := Option.bind_eq_some_iff.1 h
  obtain ⟨⟨tag, body⟩, htagged, h⟩ := Option.bind_eq_some_iff.1 h
  dsimp only at h
  have hbody : body ≠ .array [] := by
    rintro rfl
    split at h <;> cases h
  -- a cell has to be a value before its tag is looked for, and it still is one
  have hisSome := Json.Tree.isSome_value?_setSource hnew.isSome_value?
    (Option.isSome_iff_exists.2 ⟨value, hvalue⟩)
  obtain ⟨value', hvalue'⟩ := Option.isSome_iff_exists.1 hisSome
  rw [read?, hvalue', Json.Tree.tagged?_setSource htagged hbody]
  split at h
  · exact readMarkdown?_setSource hnew h
  · exact readCode?_setSource hnew h
  · cases h

end Cell

/-! ## Notebooks with another source in a cell -/

namespace Json.Tree

/-- A list with another item at position `i`. -/
def modifyItem (i : ℕ) (f : Tree → Tree) : Tree → Tree
  | .array items => .array (items.modify i f)
  | tree => tree

/-- A notebook with another source in the cell at position `i`. -/
def setCellSource (tree : Tree) (i : ℕ) (source : Tree) : Tree :=
  tree.modifyField "cells" 0 (modifyItem i fun cell => cell.setSource source)

end Json.Tree

namespace Notebook

variable {tree new : Tree} {text : String} {book : Notebook}

/-- With another source in one of its cells, a notebook is read with the text that this one spells
there, and otherwise as before. -/
theorem ofTree?_setCellSource (hnew : new.Spells text) (h : ofTree? tree = some book) (i : ℕ) :
    ofTree? (tree.setCellSource i new)
      = some { book with cells := book.cells.modify i fun cell => cell.withSource text } := by
  unfold ofTree? at h
  obtain ⟨values, hvalues, h⟩ := Option.bind_eq_some_iff.1 h
  split at h
  · next cells metadata format formatMinor =>
    obtain ⟨info, hinfo, h⟩ := Option.bind_eq_some_iff.1 h
    have hset : (tree.setCellSource i new).record?
          ["cells", "metadata", "nbformat", "nbformat_minor"]
        = some [some (cells.modifyItem i fun cell => cell.setSource new), some metadata,
            some format, some formatMinor] :=
      Json.Tree.record?_modifyField (by decide) rfl hvalues _
    split at h
    · next kernel language =>
      obtain ⟨items, hitems, h⟩ := Option.bind_eq_some_iff.1 h
      obtain ⟨cells', hcells', h⟩ := Option.bind_eq_some_iff.1 h
      obtain ⟨kernel', hkernel, h⟩ := Option.bind_eq_some_iff.1 h
      obtain ⟨language', hlanguage, h⟩ := Option.bind_eq_some_iff.1 h
      obtain ⟨format', hformat, h⟩ := Option.bind_eq_some_iff.1 h
      obtain ⟨formatMinor', hformatMinor, h⟩ := Option.bind_eq_some_iff.1 h
      cases h
      obtain rfl : cells = .array items := Json.Tree.items?_eq_some_iff.1 hitems
      have hread : (items.modify i fun cell => cell.setSource new).mapM
            (Cell.read? (Json.depthLimit - 2))
          = some (cells'.modify i fun cell => cell.withSource text) :=
        mapM_modify hcells' (fun cell value hcell => Cell.read?_setSource hnew hcell) i
      rw [ofTree?, hset, Option.bind_eq_bind, Option.bind_some]
      dsimp only
      rw [hinfo]
      show Option.bind ((items.modify i fun cell => cell.setSource new).mapM
        (Cell.read? (Json.depthLimit - 2))) _ = _
      rw [hread, Option.bind_some, hkernel, hlanguage, hformat, hformatMinor]
      rfl
    · cases h
  · cases h

/-- Another spelling of the source that a cell has does not change the notebook. -/
theorem ofTree?_setCellSource_of_spells {i : ℕ} {cell : Cell} (hi : book.cells[i]? = some cell)
    (hnew : new.Spells cell.source) (h : ofTree? tree = some book) :
    ofTree? (tree.setCellSource i new) = some book := by
  have hcells : (book.cells.modify i fun cell' => cell'.withSource cell.source) = book.cells := by
    refine List.ext_getElem? fun j => ?_
    rw [List.getElem?_modify]
    by_cases hj : i = j
    · subst hj
      rw [hi, Option.map_eq_map, Option.map_some, if_pos rfl, Cell.withSource_source]
    · simp only [if_neg hj, Option.map_eq_map, Option.map_id_fun', id_eq]
  rw [ofTree?_setCellSource hnew h i, hcells]

/-- The source of a cell is written as the only list of strings that keep their line ends and make
it. Read is it from any list of strings that make it, and from the string itself: with any of these
in the place of a cell's source, a notebook file gives the same notebook. -/
theorem source_written_and_read :
    (∀ cell : Cell, ∃ (fields : List (String × Json)) (lines : List String),
      cell.toJson = .object fields ∧
      fields.lookup "source" = some (.array (lines.map .string)) ∧
      ∀ other : List String,
        String.join other = cell.source ∧ Text.KeepsEnds other ↔ other = lines) ∧
    ∀ (text text' : String) (tree new : Tree) (book : Notebook) (i : ℕ) (cell : Cell),
      Tree.read? text.toList = some tree → read? text = some book →
      book.cells[i]? = some cell → new.Spells cell.source →
      Tree.read? text'.toList = some (tree.setCellSource i new) →
      read? text' = some book := by
  constructor
  · intro cell
    have honly : ∀ other : List String, String.join other = cell.source ∧ Text.KeepsEnds other ↔
        other = Text.linesWithEnds cell.source :=
      fun other => Text.linesWithEnds_eq_iff.symm.trans eq_comm
    cases cell with
    | markdown metadata source => exact ⟨_, Text.linesWithEnds source, rfl, rfl, honly⟩
    | code metadata source count? outputs => exact ⟨_, Text.linesWithEnds source, rfl, rfl, honly⟩
  · intro text text' tree new book i cell htree hbook hi hnew htree'
    rw [read?, htree] at hbook
    rw [read?, htree']
    exact ofTree?_setCellSource_of_spells hi hnew hbook

/-- A source of two lines, cut within the first one, with an empty string in between. -/
theorem source_written_and_read_cut :
    let file (parts : List String) : Json := .object [
      ("cells", .array [.object [("cell_type", .string "code"),
        ("source", .array (parts.map .string)), ("execution_count", .int 7)]]),
      ("metadata", .object [
        ("kernelspec", KernelSpec.toJson ⟨"Julia", "julia", "julia"⟩),
        ("language_info", LanguageInfo.toJson ⟨".jl", "application/julia", "julia"⟩)]),
      ("nbformat", .int 4), ("nbformat_minor", .int 2)]
    let text := (file ["x = 1\n", "x"]).write .indented
    let text' := (file ["x", "", " = 1\nx"]).write .compact
    let cell : Cell := .code [] "x = 1\nx" (some 7) []
    let book : Notebook := {
      cells := [cell]
      kernel := ⟨"Julia", "julia", "julia"⟩
      language := ⟨".jl", "application/julia", "julia"⟩ }
    let cut : Tree := .array [.string (some "x"), .string (some ""), .string (some " = 1\nx")]
    ∃ tree : Tree, Tree.read? text.toList = some tree ∧ read? text = some book ∧
      cut.Spells cell.source ∧ Tree.read? text'.toList = some (tree.setCellSource 0 cut) ∧
      read? text' = some book := by
  intro file text text' cell book cut
  have hexact (parts : List String) : (file parts).Exact := by
    have hsource : Json.Exact (.array (parts.map .string)) := by
      refine .array fun item hitem => ?_
      obtain ⟨part, -, rfl⟩ := List.mem_map.1 hitem
      exact .string part
    have hcell : Json.Exact (.object [("cell_type", .string "code"),
        ("source", .array (parts.map .string)), ("execution_count", .int 7)]) :=
      .object (List.forall_iff_forall_mem.1 ⟨.string _, hsource, .int _⟩)
    have hkernel : (KernelSpec.toJson ⟨"Julia", "julia", "julia"⟩).Exact :=
      .object (List.forall_iff_forall_mem.1 ⟨.string _, .string _, .string _⟩)
    have hlanguage : (LanguageInfo.toJson ⟨".jl", "application/julia", "julia"⟩).Exact :=
      .object (List.forall_iff_forall_mem.1 ⟨.string _, .string _, .string _⟩)
    exact .object (List.forall_iff_forall_mem.1 ⟨.array (List.forall_mem_singleton.2 hcell),
      .object (List.forall_iff_forall_mem.1 ⟨hkernel, hlanguage⟩), .int _, .int _⟩)
  have hread {layout : Json.Layout} (hlayout : layout.Spaced) (parts : List String) :
      Tree.read? ((file parts).write layout).toList = some (Json.tree (file parts)) := by
    rw [← List.append_nil ((file parts).write layout).toList]
    exact (hexact parts).read?_write hlayout (List.forall_mem_nil _)
  have htree : Tree.read? text.toList = some (Json.tree (file ["x = 1\n", "x"])) :=
    hread Json.Layout.spaced_indented _
  have htree' : Tree.read? text'.toList
      = some ((Json.tree (file ["x = 1\n", "x"])).setCellSource 0 cut) :=
    hread Json.Layout.spaced_compact _
  have hbook : read? text = some book := by
    rw [read?, htree]
    rfl
  have hcut : cut.Spells cell.source := .list ["x", "", " = 1\nx"] rfl
  exact ⟨_, htree, hbook, hcut, htree', source_written_and_read.2 text text' _ cut book 0 cell
    htree hbook rfl hcut htree'⟩

end Notebook

end Weave
