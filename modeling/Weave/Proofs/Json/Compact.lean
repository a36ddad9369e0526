import Weave.Proofs.Json.RoundTrip

/-!
# Compact texts

The compact text of a value is one line: whatever its strings hold, their controls are written as
escapes, and nothing stands between tokens. So no character of the text lies below the space
(`Exact.le_of_mem_write_compact`), newlines and carriage returns included.
-/

namespace Weave.Json

/-! ## Tokens -/

theorem le_of_all {s : List Char} (h : s.all (fun c => decide (0x20 ≤ c.toNat)) = true) :
    ∀ c ∈ s, 0x20 ≤ c.toNat :=
  fun c hc => of_decide_eq_true (List.all_eq_true.1 h c hc)

/-- Control characters are escaped, and no escape has one. -/
theorem le_of_mem_escapeChar {c d : Char} (h : d ∈ escapeChar c) : 0x20 ≤ d.toNat := by
  obtain ⟨e, he, hc⟩ | ⟨hcontrol, hc⟩ | ⟨-, -, hcontrol, hc⟩ := escapeChar_cases c
  · have hletter : ∀ pair ∈ letterEscapes, 0x20 ≤ pair.1.toNat := by decide
    rw [hc] at h
    rcases List.mem_cons.1 h with rfl | h
    · decide
    · rw [List.mem_singleton.1 h]
      exact hletter _ he
  · -- the digits of the code, and what stands in front of them
    have hcode : ∀ n < 0x20, ('\\' :: 'u' :: Text.padZeros 4 (Text.hexDigits n)).all
        (fun d => decide (0x20 ≤ d.toNat)) = true := by
      decide
    rw [hc] at h
    exact le_of_all (hcode c.toNat hcontrol) d h
  · rw [hc] at h
    rw [List.mem_singleton.1 h]
    exact Nat.le_of_not_lt hcontrol

/-- A string on one line stays on it, whatever it holds. -/
theorem le_of_mem_writeString {s : String} {c : Char} (h : c ∈ writeString s) :
    0x20 ≤ c.toNat := by
  have hquote : 0x20 ≤ '"'.toNat := by decide
  rw [writeString, List.cons_append, List.mem_cons, List.mem_append, List.mem_flatMap,
    List.mem_singleton] at h
  rcases h with rfl | ⟨d, -, hd⟩ | rfl
  · exact hquote
  · exact le_of_mem_escapeChar hd
  · exact hquote

theorem le_of_mem_decimalDigits {n : ℕ} {c : Char} (h : c ∈ decimalDigits n) : 0x20 ≤ c.toNat := by
  have hdigit := isDigit_of_mem_decimalDigits h
  exact Nat.le_trans (by decide) (Char.isDigit_iff_toNat.1 hdigit).1

/-- Signs and digits are no control characters. -/
theorem le_of_mem_writeInt {n : Int} {c : Char} (h : c ∈ writeInt n) : 0x20 ≤ c.toNat := by
  cases n with
  | ofNat n => exact le_of_mem_decimalDigits h
  | negSucc n =>
    rcases List.mem_cons.1 h with rfl | h
    · decide
    · exact le_of_mem_decimalDigits h

/-! ## Values -/

section Containers

variable {depth : ℕ} {c : Char}

/-- Items are separated by commas alone, so it is all up to the items. -/
theorem le_of_mem_writeItems {items : List Json}
    (hitems : ∀ item ∈ items, ∀ c ∈ writeAt .compact depth item, 0x20 ≤ c.toNat)
    (h : c ∈ writeItems .compact depth items) : 0x20 ≤ c.toNat := by
  induction items with
  | nil => cases h
  | cons item items ih =>
    have htext : writeItems .compact depth (item :: items)
        = ',' :: (writeAt .compact depth item ++ writeItems .compact depth items) := rfl
    rw [htext, List.mem_cons, List.mem_append] at h
    rcases h with rfl | h | h
    · decide
    · exact hitems item List.mem_cons_self c h
    · exact ih (fun item' hitem' => hitems item' (List.mem_cons_of_mem _ hitem')) h

theorem le_of_mem_writeFields {fields : List (String × Json)}
    (hfields : ∀ field ∈ fields, ∀ c ∈ writeAt .compact depth field.2, 0x20 ≤ c.toNat)
    (h : c ∈ writeFields .compact depth fields) : 0x20 ≤ c.toNat := by
  induction fields with
  | nil => cases h
  | cons field fields ih =>
    have htext : writeFields .compact depth (field :: fields)
        = ',' :: (writeString field.1 ++ ':' :: (writeAt .compact depth field.2
          ++ writeFields .compact depth fields)) := by
      simp [writeFields, Layout.compact]
    rw [htext, List.mem_cons, List.mem_append, List.mem_cons, List.mem_append] at h
    rcases h with rfl | h | rfl | h | h
    · decide
    · exact le_of_mem_writeString h
    · decide
    · exact hfields field List.mem_cons_self c h
    · exact ih (fun field' hfield' => hfields field' (List.mem_cons_of_mem _ hfield')) h

end Containers

/-- A container is its brackets around what would stand behind a first item, less the comma. -/
theorem Exact.le_of_mem_writeAt {value : Json} (h : value.Exact) (depth : ℕ) :
    ∀ c ∈ writeAt .compact depth value, 0x20 ≤ c.toNat := by
  induction h generalizing depth with
  | null => exact le_of_all rfl
  | bool b => cases b <;> exact le_of_all rfl
  | int n => exact fun c hc => le_of_mem_writeInt hc
  | string s => exact fun c hc => le_of_mem_writeString hc
  | @array items hitems ih =>
    have hrest (c : Char) :=
      le_of_mem_writeItems (c := c) fun item hitem => ih item hitem (depth + 1)
    intro c hc
    cases items with
    | nil => exact le_of_all (s := ['[', ']']) rfl c hc
    | cons item items =>
      have htext : writeAt .compact depth (.array (item :: items))
          = '[' :: ((writeItems .compact (depth + 1) (item :: items)).tail ++ [']']) := by
        simp [writeAt, writeItems, Layout.compact]
      rw [htext, List.mem_cons, List.mem_append, List.mem_singleton] at hc
      rcases hc with rfl | hc | rfl
      · decide
      · exact hrest c (List.mem_of_mem_tail hc)
      · decide
  | @object fields hfields ih =>
    have hrest (c : Char) :=
      le_of_mem_writeFields (c := c) fun field hfield => ih field hfield (depth + 1)
    intro c hc
    cases fields with
    | nil => exact le_of_all (s := ['\x7b', '\x7d']) rfl c hc
    | cons field fields =>
      have htext : writeAt .compact depth (.object (field :: fields))
          = '\x7b' :: ((writeFields .compact (depth + 1) (field :: fields)).tail ++ ['\x7d']) := by
        simp [writeAt, writeFields, Layout.compact]
      rw [htext, List.mem_cons, List.mem_append, List.mem_singleton] at hc
      rcases hc with rfl | hc | rfl
      · decide
      · exact hrest c (List.mem_of_mem_tail hc)
      · decide

/-- A compact text has no control characters, and so it is one line. -/
theorem Exact.le_of_mem_write_compact {value : Json} (h : value.Exact) {c : Char}
    (hc : c ∈ (value.write .compact).toList) : 0x20 ≤ c.toNat := by
  rw [write, String.toList_ofList] at hc
  exact h.le_of_mem_writeAt 0 c hc

end Weave.Json
