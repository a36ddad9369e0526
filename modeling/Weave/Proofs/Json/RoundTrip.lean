import Mathlib.Data.List.Induction
import Weave.Json.Reader
import Weave.Proofs.Json.Tokens

/-!
# Values read back from their text

A value is read back from its tree if it is `Kept`: if it has no floats, integers of 64 bits and
keys in increasing order, and is not too deep (`value?_tree`). What a layout puts between tokens is
space, which reading skips (`Layout.Spaced`), so that in every layout the text of a value without
floats spells its tree (`Exact.spelled`), and reading the text of a value that is kept gives the value
again (`read?_write`).
-/

namespace Weave.Json

/-- A value that reading gives back as it is: it has no floats, its integers have 64 bits with or
without sign, the keys of its objects stand in increasing order, and its containers stand in one
another at most `depth` deep. -/
inductive Kept : ℕ → Json → Prop
  | null (depth : ℕ) : Kept depth .null
  | bool (depth : ℕ) (b : Bool) : Kept depth (.bool b)
  | int (depth : ℕ) {n : Int} (hlow : -2 ^ 63 ≤ n) (hhigh : n < 2 ^ 64) : Kept depth (.int n)
  | string (depth : ℕ) (s : String) : Kept depth (.string s)
  | array {depth : ℕ} {items : List Json} (hitems : ∀ item ∈ items, Kept depth item) :
      Kept (depth + 1) (.array items)
  | object {depth : ℕ} {fields : List (String × Json)}
      (hkeys : fields.Pairwise fun field field' => field.1 < field'.1)
      (hfields : ∀ field ∈ fields, Kept depth field.2) : Kept (depth + 1) (.object fields)

/-- A value without floats. Its text spells it exactly, while a float may be rounded. -/
inductive Exact : Json → Prop
  | null : Exact .null
  | bool (b : Bool) : Exact (.bool b)
  | int (n : Int) : Exact (.int n)
  | string (s : String) : Exact (.string s)
  | array {items : List Json} (hitems : ∀ item ∈ items, Exact item) : Exact (.array items)
  | object {fields : List (String × Json)} (hfields : ∀ field ∈ fields, Exact field.2) :
      Exact (.object fields)

/-- A value that is kept has no floats. -/
theorem Kept.exact {depth : ℕ} {value : Json} (h : Kept depth value) : value.Exact := by
  induction h with
  | null => exact .null
  | bool _ b => exact .bool b
  | @int _ n => exact .int n
  | string _ s => exact .string s
  | array _ ih => exact .array ih
  | object _ _ ih => exact .object ih

theorem pairwise_of_keys {fields : List (String × Json)} (keys : List String)
    (hfields : fields.map Prod.fst = keys) (hkeys : keys.Pairwise (· < ·)) :
    fields.Pairwise fun field field' => field.1 < field'.1 :=
  List.pairwise_map.1 (hfields ▸ hkeys)

/-- An object with known keys is kept if its values are. -/
theorem Kept.record {depth : ℕ} {fields : List (String × Json)} (keys : List String)
    (hfields : fields.map Prod.fst = keys) (hkeys : keys.Pairwise (· < ·))
    (hvalues : fields.Forall fun field => Kept depth field.2) : Kept (depth + 1) (.object fields) :=
  .object (pairwise_of_keys keys hfields hkeys) (List.forall_iff_forall_mem.1 hvalues)

mutual

/-- The tree that the text of a value spells. Floats, which are not spelled here, have none of their
own. -/
def tree : Json → Tree
  | .null => .null
  | .bool b => .bool b
  | .int n => .number (numeral n)
  | .float _ => .null
  | .string s => .string (some s)
  | .array items => .array (trees items)
  | .object fields => .object (fieldTrees fields)

/-- The trees of values. -/
def trees : List Json → List Tree
  | [] => []
  | item :: items => tree item :: trees items

/-- The trees of fields. -/
def fieldTrees : List (String × Json) → List (Option String × Tree)
  | [] => []
  | (key, value) :: fields => (some key, tree value) :: fieldTrees fields

end

/-! ## From trees to values -/

/-- A key behind all others goes to the end. -/
theorem insertField_of_lt {fields : List (String × Json)} {key : String}
    (h : ∀ field ∈ fields, field.1 < key) (value : Json) :
    insertField key value fields = fields ++ [(key, value)] := by
  induction fields with
  | nil => rfl
  | cons field fields ih =>
    have hlt : field.1 < key := h field List.mem_cons_self
    rw [insertField, if_neg (String.lt_asymm hlt), if_neg fun heq => ?_,
      ih fun f hf => h f (List.mem_cons_of_mem _ hf), List.cons_append]
    rw [heq] at hlt
    exact String.lt_irrefl _ hlt

/-- Fields in increasing order stay where they are. -/
theorem sortFields_eq_self {fields : List (String × Json)}
    (h : fields.Pairwise fun field field' => field.1 < field'.1) : sortFields fields = fields := by
  induction fields using List.reverseRecOn with
  | nil => rfl
  | append_singleton fields field ih =>
    obtain ⟨hfields, -, hlast⟩ := List.pairwise_append.1 h
    have hlt : ∀ f ∈ fields, f.1 < field.1 := fun f hf => hlast f hf field List.mem_cons_self
    rw [sortFields, List.foldl_append, ← sortFields, ih hfields]
    exact insertField_of_lt hlt field.2

/-- What is kept at some depth is kept wherever more depth is allowed. -/
theorem Kept.mono {depth depth' : ℕ} {value : Json} (h : Kept depth value) (hle : depth ≤ depth') :
    Kept depth' value := by
  induction h generalizing depth' with
  | null => exact .null depth'
  | bool _ b => exact .bool depth' b
  | int _ hlow hhigh => exact .int depth' hlow hhigh
  | string _ s => exact .string depth' s
  | array hitems ih =>
    obtain ⟨depth', rfl⟩ := Nat.exists_eq_add_of_lt hle
    exact .array fun item hitem => ih item hitem (by omega)
  | object hkeys hfields ih =>
    obtain ⟨depth', rfl⟩ := Nat.exists_eq_add_of_lt hle
    exact .object hkeys fun field hfield => ih field hfield (by omega)

theorem Kept.keys {depth : ℕ} {fields : List (String × Json)} (h : Kept depth (.object fields)) :
    fields.Pairwise fun field field' => field.1 < field'.1 := by
  cases h with
  | object hkeys _ => exact hkeys

theorem Kept.items {depth : ℕ} {items : List Json} (h : Kept (depth + 1) (.array items)) :
    ∀ item ∈ items, Kept depth item := by
  cases h with
  | array hitems => exact hitems

/-- A list is read back if each of its items is. -/
theorem values?_trees {depth : ℕ} {items : List Json}
    (h : ∀ item ∈ items, (tree item).value? depth = some item) :
    Tree.values? depth (trees items) = some items := by
  induction items with
  | nil => rfl
  | cons item items ih =>
    rw [trees, Tree.values?, h item List.mem_cons_self,
      ih fun item' hitem' => h item' (List.mem_cons_of_mem _ hitem')]
    rfl

theorem fieldValues?_fieldTrees {depth : ℕ} {fields : List (String × Json)}
    (h : ∀ field ∈ fields, (tree field.2).value? depth = some field.2) :
    Tree.fieldValues? depth (fieldTrees fields) = some fields := by
  induction fields with
  | nil => rfl
  | cons field fields ih =>
    obtain ⟨key, value⟩ := field
    have hvalue : (tree value).value? depth = some value := h (key, value) List.mem_cons_self
    rw [fieldTrees, Tree.fieldValues?, hvalue,
      ih fun field' hfield' => h field' (List.mem_cons_of_mem _ hfield')]
    rfl

/-- Reading puts the fields of an object in order. -/
theorem value?_tree_object {depth : ℕ} {fields : List (String × Json)}
    (h : ∀ field ∈ fields, (tree field.2).value? depth = some field.2) :
    (tree (.object fields)).value? (depth + 1) = some (.object (sortFields fields)) := by
  rw [tree, Tree.value?, fieldValues?_fieldTrees h]
  rfl

/-- A value that is kept is the value of its tree. -/
theorem value?_tree {depth : ℕ} {value : Json} (h : Kept depth value) :
    (tree value).value? depth = some value := by
  induction h with
  | null => rfl
  | bool => rfl
  | int _ hlow hhigh => exact value?_numeral hlow hhigh
  | string => rfl
  | array hitems ih =>
    rw [tree, Tree.value?, values?_trees ih]
    rfl
  | object hkeys hfields ih => rw [value?_tree_object ih, sortFields_eq_self hkeys]

/-! ## From texts to trees -/

/-- A layout that puts nothing but space between tokens. -/
structure Layout.Spaced (layout : Layout) : Prop where
  before : ∀ (depth : ℕ), ∀ c ∈ layout.before depth, isSpace c
  colon : ∃ space, layout.colon = ':' :: space ∧ ∀ c ∈ space, isSpace c

theorem Layout.spaced_compact : Layout.compact.Spaced where
  before depth c h := by cases h
  colon := ⟨[], rfl, fun c h => by cases h⟩

theorem Layout.spaced_indented : Layout.indented.Spaced where
  before depth c h := by
    obtain rfl | hc := List.mem_cons.1 h
    · rfl
    · rw [List.eq_of_mem_replicate hc]
      rfl
  colon := ⟨[' '], rfl, List.forall_mem_singleton.2 rfl⟩

section Reading

variable {space s rest : List Char} {c : Char} {fuel : ℕ}

/-- Space at the front is passed over. -/
theorem skipSpace_append (h : ∀ c ∈ space, isSpace c) (s : List Char) :
    skipSpace (space ++ s) = skipSpace s :=
  List.dropWhile_append_of_pos h

theorem skipSpace_cons (h : isSpace c = false) (s : List Char) : skipSpace (c :: s) = c :: s :=
  List.dropWhile_cons_of_neg (by rw [h]; decide)

/-- A closing bracket, a comma or a space ends a numeral. -/
theorem ends_cons (h : c ∈ [',', ']', '\x7d', ' ', '\t', '\n', '\r']) (s : List Char) :
    Ends (c :: s) := by
  intro d hd
  cases hd
  simp only [List.mem_cons, List.not_mem_nil, or_false] at h
  rcases h with rfl | rfl | rfl | rfl | rfl | rfl | rfl
  all_goals decide

theorem ends_append (hspace : ∀ c ∈ space, isSpace c) (hs : Ends s) : Ends (space ++ s) := by
  cases space with
  | nil => exact hs
  | cons c space =>
    have hc := hspace c List.mem_cons_self
    simp only [isSpace, Bool.or_eq_true, beq_iff_eq] at hc
    refine ends_cons ?_ _
    simp only [List.mem_cons]
    tauto

/-- Space before a value does not matter. -/
theorem readTree_append_space (h : ∀ c ∈ space, isSpace c) (s : List Char) :
    readTree fuel (space ++ s) = readTree fuel s := by
  cases fuel with
  | zero => rw [readTree, readTree]
  | succ fuel => rw [readTree, readTree, skipSpace_append h]

/-- A quote begins a string. -/
theorem readTree_string (s : List Char) :
    readTree (fuel + 1) ('"' :: s) = (readString s).map fun (value?, rest) =>
      (.string value?, rest) := by
  rw [readTree]
  rfl

/-- A bracket begins an array, which has items unless the other bracket follows. -/
theorem readTree_array (h : skipSpace s = c :: rest) (hc : c ≠ ']') :
    readTree (fuel + 1) ('[' :: s)
      = (readItems fuel s).map fun (items, rest) => (.array items, rest) := by
  rw [readTree, skipSpace_cons (by decide)]
  -- only the branch of the opening bracket does not contradict the text
  split
  case h_2 heq =>
    rw [← (List.cons.inj heq).2, h]
    split
    · next heq => exact absurd (List.cons.inj heq).1 hc
    · rfl
  case h_7 hbracket _ _ _ _ => exact absurd rfl (hbracket s)
  all_goals
    next heq => exact absurd (List.cons.inj heq).1 (by decide)

/-- A brace begins an object, which has fields if a quote follows. -/
theorem readTree_object (h : skipSpace s = '"' :: rest) :
    readTree (fuel + 1) ('\x7b' :: s)
      = (readFields fuel s).map fun (fields, rest) => (.object fields, rest) := by
  rw [readTree, skipSpace_cons (by decide)]
  split
  case h_3 heq =>
    rw [← (List.cons.inj heq).2, h]
    rfl
  case h_7 hbrace _ _ _ => exact absurd rfl (hbrace s)
  all_goals
    next heq => exact absurd (List.cons.inj heq).1 (by decide)

theorem isSpace_of_numeral (h : c = '-' ∨ c.isDigit) : isSpace c = false := by
  obtain rfl | hdigit := h
  · rfl
  · by_contra hspace
    rw [Bool.not_eq_false] at hspace
    simp only [isSpace, Bool.or_eq_true, beq_iff_eq] at hspace
    rcases hspace with ((rfl | rfl) | rfl) | rfl
    all_goals exact absurd hdigit (by decide)

/-- A minus sign or a digit begins a numeral and nothing else. -/
theorem readTree_numeral (h : c = '-' ∨ c.isDigit) (s : List Char) :
    readTree (fuel + 1) (c :: s) = (readNumeral (c :: s)).map fun (numeral, rest) =>
      (.number numeral, rest) := by
  have hne : ∀ d ∈ ['"', '[', '\x7b', 'n', 't', 'f'], c ≠ d := by
    intro d hd heq
    rw [heq] at h
    simp only [List.mem_cons, List.not_mem_nil, or_false] at hd
    rcases hd with rfl | rfl | rfl | rfl | rfl | rfl
    all_goals exact absurd h (by decide)
  rw [readTree, skipSpace_cons (isSpace_of_numeral h)]
  split
  case h_7 => rfl
  all_goals
    next heq => exact absurd (List.cons.inj heq).1 (hne _ (by decide))

theorem readItems_append_space (h : ∀ c ∈ space, isSpace c) (s : List Char) :
    readItems fuel (space ++ s) = readItems fuel s := by
  cases fuel with
  | zero => rw [readItems, readItems]
  | succ fuel => rw [readItems, readItems, readTree_append_space h]

theorem readItems_last {item : Tree} (hitem : readTree fuel s = some (item, space ++ ']' :: rest))
    (hspace : ∀ c ∈ space, isSpace c) : readItems (fuel + 1) s = some ([item], rest) := by
  rw [readItems, hitem, Option.bind_eq_bind, Option.bind_some]
  dsimp only
  rw [skipSpace_append hspace]
  rfl

/-- An item before a comma is followed by another one. -/
theorem readItems_next {item : Tree} (hitem : readTree fuel s = some (item, ',' :: rest)) :
    readItems (fuel + 1) s
      = (readItems fuel rest).map fun (items, rest) => (item :: items, rest) := by
  rw [readItems, hitem]
  show (readItems fuel rest).bind _ = _
  cases readItems fuel rest <;> rfl

/-! ### Containers -/

variable {layout : Layout}

/-- The text of a value is read as its tree, at every depth and whatever follows, with two units of
fuel for each of its characters. -/
def Spelled (layout : Layout) (value : Json) : Prop :=
  ∀ (depth fuel : ℕ) (rest : List Char), Ends rest →
    2 * (writeAt layout depth value).length ≤ fuel →
      readTree fuel (writeAt layout depth value ++ rest) = some (tree value, rest)

/-- The items of an array are read up to its bracket. -/
theorem readItems_writeItems (hlayout : layout.Spaced) (depth : ℕ) {items : List Json} {item : Json}
    (hitems : ∀ value ∈ item :: items, Spelled layout value) (hspace : ∀ c ∈ space, isSpace c)
    (hfuel : 2 * ((writeAt layout depth item).length + (writeItems layout depth items).length)
      < fuel) :
    readItems fuel (writeAt layout depth item ++
        (writeItems layout depth items ++ (space ++ ']' :: rest)))
      = some (trees (item :: items), rest) := by
  -- on the items behind the first one; each of them is read with one unit of fuel less
  induction items generalizing item fuel with
  | nil =>
    obtain ⟨fuel, rfl⟩ := Nat.exists_eq_succ_of_ne_zero (Nat.ne_zero_of_lt hfuel)
    have hends : Ends (space ++ ']' :: rest) := ends_append hspace (ends_cons (by decide) rest)
    exact readItems_last (hitems item List.mem_cons_self depth fuel _ hends (by omega)) hspace
  | cons next items ih =>
    obtain ⟨fuel, rfl⟩ := Nat.exists_eq_succ_of_ne_zero (Nat.ne_zero_of_lt hfuel)
    have htext : writeItems layout depth (next :: items) ++ (space ++ ']' :: rest)
        = ',' :: (layout.before depth ++ (writeAt layout depth next ++
          (writeItems layout depth items ++ (space ++ ']' :: rest)))) := by
      simp only [writeItems, List.cons_append, List.append_assoc]
    have hlength : (writeItems layout depth (next :: items)).length
        = (layout.before depth).length + (writeAt layout depth next).length
          + (writeItems layout depth items).length + 1 := by
      simp only [writeItems, List.length_append, List.length_cons]
      omega
    have hends : Ends (',' :: (layout.before depth ++ (writeAt layout depth next ++
        (writeItems layout depth items ++ (space ++ ']' :: rest))))) := ends_cons (by decide) _
    have hitem := hitems item List.mem_cons_self depth fuel _ hends (by omega)
    rw [htext, readItems_next hitem, readItems_append_space (hlayout.before depth),
      ih (fun value hvalue => hitems value (List.mem_cons_of_mem _ hvalue)) (by omega)]
    rfl

theorem readFields_append_space (h : ∀ c ∈ space, isSpace c) (s : List Char) :
    readFields fuel (space ++ s) = readFields fuel s := by
  cases fuel with
  | zero => rw [readFields, readFields]
  | succ fuel => rw [readFields, readFields, skipSpace_append h]

theorem writeString_append (key : String) (s : List Char) :
    writeString key ++ s = '"' :: (key.toList.flatMap escapeChar ++ '"' :: s) := by
  simp only [writeString, List.cons_append, List.append_assoc, List.nil_append]

/-- A key and the colon behind it are read, in whatever layout. -/
theorem readFields_writeString (hlayout : layout.Spaced) (key : String) (s : List Char) :
    readFields (fuel + 1) (writeString key ++ (layout.colon ++ s)) = (do
      let (value, rest) ← readTree fuel s
      match skipSpace rest with
      | '\x7d' :: rest => return ([(some key, value)], rest)
      | ',' :: rest =>
        let (fields, rest) ← readFields fuel rest
        return ((some key, value) :: fields, rest)
      | _ => none) := by
  obtain ⟨gap, hcolon, hgap⟩ := hlayout.colon
  rw [writeString_append, hcolon, List.cons_append, readFields, skipSpace_cons (by decide),
    ← readTree_append_space hgap]
  show (readString (key.toList.flatMap escapeChar ++ '"' :: ':' :: (gap ++ s))).bind _ = _
  rw [readString_escaped]
  rfl

theorem readFields_last (hlayout : layout.Spaced) {key : String} {value : Tree}
    (hvalue : readTree fuel s = some (value, space ++ '\x7d' :: rest))
    (hspace : ∀ c ∈ space, isSpace c) :
    readFields (fuel + 1) (writeString key ++ (layout.colon ++ s))
      = some ([(some key, value)], rest) := by
  rw [readFields_writeString hlayout, hvalue, Option.bind_eq_bind, Option.bind_some]
  dsimp only
  rw [skipSpace_append hspace]
  rfl

/-- A field before a comma is followed by another one. -/
theorem readFields_next (hlayout : layout.Spaced) {key : String} {value : Tree}
    (hvalue : readTree fuel s = some (value, ',' :: rest)) :
    readFields (fuel + 1) (writeString key ++ (layout.colon ++ s))
      = (readFields fuel rest).map fun (fields, rest) => ((some key, value) :: fields, rest) := by
  rw [readFields_writeString hlayout, hvalue]
  show (readFields fuel rest).bind _ = _
  cases readFields fuel rest <;> rfl

/-- The fields of an object are read up to its brace. -/
theorem readFields_writeFields (hlayout : layout.Spaced) (depth : ℕ)
    {fields : List (String × Json)} {key : String} {value : Json} (hvalue : Spelled layout value)
    (hfields : ∀ field ∈ fields, Spelled layout field.2) (hspace : ∀ c ∈ space, isSpace c)
    (hfuel : 2 * ((writeString key).length + (writeAt layout depth value).length
      + (writeFields layout depth fields).length) < fuel) :
    readFields fuel (writeString key ++ (layout.colon ++ (writeAt layout depth value ++
        (writeFields layout depth fields ++ (space ++ '\x7d' :: rest)))))
      = some (fieldTrees ((key, value) :: fields), rest) := by
  induction fields generalizing key value fuel with
  | nil =>
    obtain ⟨fuel, rfl⟩ := Nat.exists_eq_succ_of_ne_zero (Nat.ne_zero_of_lt hfuel)
    have hends : Ends (space ++ '\x7d' :: rest) := ends_append hspace (ends_cons (by decide) rest)
    exact readFields_last hlayout (hvalue depth fuel _ hends (by omega)) hspace
  | cons next fields ih =>
    obtain ⟨fuel, rfl⟩ := Nat.exists_eq_succ_of_ne_zero (Nat.ne_zero_of_lt hfuel)
    obtain ⟨nextKey, nextValue⟩ := next
    have hnext : Spelled layout nextValue := hfields (nextKey, nextValue) List.mem_cons_self
    have htext : writeFields layout depth ((nextKey, nextValue) :: fields)
          ++ (space ++ '\x7d' :: rest)
        = ',' :: (layout.before depth ++ (writeString nextKey ++ (layout.colon ++
          (writeAt layout depth nextValue ++
            (writeFields layout depth fields ++ (space ++ '\x7d' :: rest)))))) := by
      simp only [writeFields, List.cons_append, List.append_assoc]
    have hlength : (writeFields layout depth ((nextKey, nextValue) :: fields)).length
        = (layout.before depth).length + (writeString nextKey).length + layout.colon.length
          + (writeAt layout depth nextValue).length
          + (writeFields layout depth fields).length + 1 := by
      simp only [writeFields, List.length_append, List.length_cons]
      omega
    have hfirst := hvalue depth fuel _ (ends_cons (c := ',') (by decide) (layout.before depth ++
      (writeString nextKey ++ (layout.colon ++ (writeAt layout depth nextValue ++
        (writeFields layout depth fields ++ (space ++ '\x7d' :: rest))))))) (by omega)
    rw [htext, readFields_next hlayout hfirst, readFields_append_space (hlayout.before depth),
      ih hnext (fun field hfield => hfields field (List.mem_cons_of_mem _ hfield)) (by omega)]
    rfl

/-! ### Values -/

/-- An integer begins with a sign or a digit, which tells it from all other values. -/
theorem exists_writeInt (n : Int) :
    ∃ c s, writeInt n = c :: s ∧ (c = '-' ∨ c.isDigit) := by
  cases n with
  | ofNat n =>
    obtain ⟨c, s, hs⟩ := List.exists_cons_of_ne_nil
      (show decimalDigits n ≠ [] from Nat.toDigits_ne_nil)
    refine ⟨c, s, hs, Or.inr (isDigit_of_mem_decimalDigits (n := n) ?_)⟩
    rw [hs]
    exact List.mem_cons_self
  | negSucc n => exact ⟨'-', decimalDigits (n + 1), rfl, Or.inl rfl⟩

/-- The text of a value begins with something that is neither space nor a closing bracket. -/
theorem Exact.exists_writeAt {value : Json} (h : value.Exact) (layout : Layout) (depth : ℕ) :
    ∃ c s, writeAt layout depth value = c :: s ∧ isSpace c = false ∧ c ≠ ']' := by
  cases h with
  | null => exact ⟨_, _, rfl, by decide⟩
  | bool b => cases b <;> exact ⟨_, _, rfl, by decide⟩
  | int n =>
    obtain ⟨c, s, hs, hc⟩ := exists_writeInt n
    refine ⟨c, s, by rw [writeAt, hs], isSpace_of_numeral hc, fun heq => ?_⟩
    rw [heq] at hc
    exact absurd hc (by decide)
  | string s => exact ⟨_, _, rfl, by decide⟩
  | @array items => cases items <;> exact ⟨_, _, rfl, by decide⟩
  | @object fields => cases fields <;> exact ⟨_, _, rfl, by decide⟩

/-- No text is empty, so that there is always fuel for one step. -/
theorem Exact.spelled_of_succ {value : Json} (h : value.Exact)
    (hread : ∀ (depth fuel : ℕ) (rest : List Char), Ends rest →
      2 * (writeAt layout depth value).length ≤ fuel + 1 →
        readTree (fuel + 1) (writeAt layout depth value ++ rest) = some (tree value, rest)) :
    Spelled layout value := by
  intro depth fuel rest hrest hfuel
  cases fuel with
  | zero =>
    obtain ⟨c, s, hs, -⟩ := h.exists_writeAt layout depth
    rw [hs, List.length_cons] at hfuel
    omega
  | succ fuel => exact hread depth fuel rest hrest hfuel

/-- An array is spelled if its items are. -/
theorem spelled_array (hlayout : layout.Spaced) {items : List Json}
    (hexact : ∀ item ∈ items, item.Exact) (hitems : ∀ item ∈ items, Spelled layout item) :
    Spelled layout (.array items) := by
  refine (Exact.array hexact).spelled_of_succ fun depth fuel rest hrest hfuel => ?_
  cases items with
  | nil =>
    rw [writeAt, readTree]
    rfl
  | cons item items =>
    -- with an item behind the bracket, the array is not taken for an empty one
    obtain ⟨c, s, hs, hspace, hc⟩ :=
      (hexact item List.mem_cons_self).exists_writeAt layout (depth + 1)
    have htext : writeAt layout depth (.array (item :: items)) ++ rest
        = '[' :: (layout.before (depth + 1) ++ (writeAt layout (depth + 1) item ++
          (writeItems layout (depth + 1) items ++ (layout.before depth ++ ']' :: rest)))) := by
      simp only [writeAt, List.cons_append, List.append_assoc, List.nil_append]
    have hlength : (writeAt layout depth (.array (item :: items))).length
        = (layout.before (depth + 1)).length + (writeAt layout (depth + 1) item).length
          + (writeItems layout (depth + 1) items).length + (layout.before depth).length + 2 := by
      simp only [writeAt, List.length_append, List.length_cons, List.length_nil]
      omega
    have hopen : skipSpace (layout.before (depth + 1) ++ (writeAt layout (depth + 1) item ++
          (writeItems layout (depth + 1) items ++ (layout.before depth ++ ']' :: rest))))
        = c :: (s ++ (writeItems layout (depth + 1) items ++
          (layout.before depth ++ ']' :: rest))) := by
      rw [skipSpace_append (hlayout.before _), hs]
      exact skipSpace_cons hspace _
    rw [htext, readTree_array hopen hc, readItems_append_space (hlayout.before _),
      readItems_writeItems hlayout (depth + 1) hitems (hlayout.before depth) (by omega)]
    rfl

theorem spelled_object (hlayout : layout.Spaced) {fields : List (String × Json)}
    (hexact : Exact (.object fields))
    (hfields : ∀ field ∈ fields, Spelled layout field.2) : Spelled layout (.object fields) := by
  refine hexact.spelled_of_succ fun depth fuel rest hrest hfuel => ?_
  cases fields with
  | nil =>
    rw [writeAt, readTree]
    rfl
  | cons field fields =>
    obtain ⟨key, value⟩ := field
    have htext : writeAt layout depth (.object ((key, value) :: fields)) ++ rest
        = '\x7b' :: (layout.before (depth + 1) ++ (writeString key ++ (layout.colon ++
          (writeAt layout (depth + 1) value ++ (writeFields layout (depth + 1) fields ++
            (layout.before depth ++ '\x7d' :: rest)))))) := by
      simp only [writeAt, List.cons_append, List.append_assoc, List.nil_append]
    have hlength : (writeAt layout depth (.object ((key, value) :: fields))).length
        = (layout.before (depth + 1)).length + (writeString key).length + layout.colon.length
          + (writeAt layout (depth + 1) value).length
          + (writeFields layout (depth + 1) fields).length + (layout.before depth).length + 2 := by
      simp only [writeAt, List.length_append, List.length_cons, List.length_nil]
      omega
    have hopen (s : List Char) : skipSpace (layout.before (depth + 1) ++ (writeString key ++ s))
        = '"' :: (key.toList.flatMap escapeChar ++ '"' :: s) := by
      rw [skipSpace_append (hlayout.before _), writeString_append]
      exact skipSpace_cons (by decide) _
    have hvalue : Spelled layout value := hfields (key, value) List.mem_cons_self
    rw [htext, readTree_object (hopen _), readFields_append_space (hlayout.before _),
      readFields_writeFields hlayout (depth + 1) hvalue
        (fun field hfield => hfields field (List.mem_cons_of_mem _ hfield))
        (hlayout.before depth) (by omega)]
    rfl

/-- Every value without floats is read from its text as its tree. -/
theorem Exact.spelled {value : Json} (hlayout : layout.Spaced) (h : value.Exact) :
    Spelled layout value := by
  induction h with
  | null =>
    refine Exact.null.spelled_of_succ fun depth fuel rest _ _ => ?_
    rw [readTree]
    rfl
  | bool b =>
    refine (Exact.bool b).spelled_of_succ fun depth fuel rest _ _ => ?_
    rw [readTree]
    cases b <;> rfl
  | int n =>
    refine (Exact.int n).spelled_of_succ fun depth fuel rest hrest _ => ?_
    obtain ⟨c, s, hs, hc⟩ := exists_writeInt n
    have hnumeral : readNumeral (c :: (s ++ rest)) = some (numeral n, rest) := by
      rw [← List.cons_append, ← hs]
      exact readNumeral_writeInt n hrest
    rw [writeAt, hs, List.cons_append, readTree_numeral hc, hnumeral]
    rfl
  | string s =>
    refine (Exact.string s).spelled_of_succ fun depth fuel rest _ _ => ?_
    rw [writeAt, writeString_append, readTree_string, readString_escaped]
    rfl
  | array hitems ih => exact spelled_array hlayout hitems ih
  | object hfields ih => exact spelled_object hlayout (.object hfields) ih

end Reading

/-- A text that ends in space is read as the tree of the value that it was written for. -/
theorem Exact.read?_write {layout : Layout} (hlayout : layout.Spaced) {value : Json}
    (h : value.Exact) {space : List Char} (hspace : ∀ c ∈ space, isSpace c) :
    Tree.read? ((value.write layout).toList ++ space) = some (tree value) := by
  have hends : Ends space := by
    rw [← List.append_nil space]
    exact ends_append hspace fun c hc => by cases hc
  have hread := h.spelled hlayout 0 (2 * (writeAt layout 0 value ++ space).length + 1) space hends
    (by rw [List.length_append]; omega)
  have hskip : skipSpace space = [] := by
    rw [← List.append_nil space]
    exact skipSpace_append hspace []
  rw [write, String.toList_ofList, Tree.read?, hread]
  show Option.bind (guard (skipSpace space).isEmpty) _ = _
  rw [hskip]
  rfl

/-- The text of a value that is kept is read as its tree, with any space behind it. -/
theorem Tree.read?_write {layout : Layout} (hlayout : layout.Spaced) {limit : ℕ} {value : Json}
    (h : Kept limit value) {space : List Char} (hspace : ∀ c ∈ space, isSpace c) :
    Tree.read? ((value.write layout).toList ++ space) = some (tree value) :=
  h.exact.read?_write hlayout hspace

/-- A value is read back from its text, in any layout that puts nothing but space between
tokens. -/
theorem read?_write {layout : Layout} (hlayout : layout.Spaced) {value : Json}
    (h : Kept depthLimit value) : read? (value.write layout) = some value := by
  have hread : Tree.read? ((value.write layout).toList ++ []) = some (tree value) :=
    Tree.read?_write hlayout h fun c hc => by cases hc
  rw [List.append_nil] at hread
  rw [read?, hread]
  exact value?_tree h

end Weave.Json
