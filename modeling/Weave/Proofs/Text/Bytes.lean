import Mathlib.Data.List.Basic
import Weave.Text.Utf8

/-!
# The bytes of a text

In the bytes of a text the byte of the newline stands for nothing but a newline. So bytes with a
newline behind them are a text exactly if the bytes before it are one (`fromUTF8?_concat`).

Bytes that need not be those of a text are shown as one. The bytes of a text are shown as this text
(`lossy_utf8`), and nothing else is shown as a text without the sign for broken characters
(`utf8_lossy_of_not_mem`).
-/

namespace Weave.Text

variable {bytes front rest : List UInt8} {c : Char}

/-! ## Bytes and a newline -/

/-- A newline behind bytes is the byte of the newline. -/
theorem toByteArray_concat (bytes : List UInt8) :
    (bytes ++ [10]).toByteArray = bytes.toByteArray ++ "\n".toByteArray := by
  rw [List.toByteArray_append]
  rfl

/-- A newline begins a character, and at the beginning of a character a text can be cut. -/
theorem isValidUTF8_of_toByteArray_eq {s : String}
    (hs : s.toByteArray = (bytes ++ [10]).toByteArray) : bytes.toByteArray.IsValidUTF8 := by
  have hlt : (⟨bytes.length⟩ : String.Pos.Raw) < s.rawEndPos := by
    rw [String.Pos.Raw.lt_iff, String.byteIdx_rawEndPos, ← String.size_toByteArray, hs,
      List.size_toByteArray, List.length_append]
    exact Nat.lt_succ_self bytes.length
  have hbyte : s.getUTF8Byte ⟨bytes.length⟩ hlt = 10 := by
    simp only [String.getUTF8Byte_eq_getElem, hs, List.getElem_toByteArray,
      List.getElem_concat_length]
  have hvalid : String.Pos.Raw.IsValid s ⟨bytes.length⟩ := by
    rw [String.Pos.Raw.isValid_iff_isUTF8FirstByte]
    exact Or.inr ⟨hlt, hbyte ▸ by decide⟩
  have hextract : s.toByteArray.extract 0 bytes.length = bytes.toByteArray := by
    rw [hs, List.toByteArray_append]
    exact ByteArray.extract_append_eq_left List.size_toByteArray.symm
  rw [← hextract]
  exact hvalid.isValidUTF8_extract_zero

/-- Bytes and a newline are a text exactly if the bytes are one. -/
theorem fromUTF8?_concat (bytes : List UInt8) :
    String.fromUTF8? (bytes ++ [10]).toByteArray
      = (String.fromUTF8? bytes.toByteArray).map (· ++ "\n") := by
  by_cases h : bytes.toByteArray.IsValidUTF8
  · have h' : (bytes ++ [10]).toByteArray.IsValidUTF8 := by
      rw [toByteArray_concat]
      exact h.append "\n".isValidUTF8
    rw [String.fromUTF8?, String.fromUTF8?, dif_pos h, dif_pos h', Option.map_some, Option.some_inj,
      ← String.toByteArray_inj, String.toByteArray_append]
    exact toByteArray_concat bytes
  · have h' : ¬ (bytes ++ [10]).toByteArray.IsValidUTF8 := by
      intro h'
      exact h (isValidUTF8_of_toByteArray_eq (s := String.fromUTF8 _ h') rfl)
    rw [String.fromUTF8?, String.fromUTF8?, dif_neg h, dif_neg h', Option.map_none]

/-! ## Bytes between slashes -/

theorem utf8EncodeChar_ne_nil (c : Char) : String.utf8EncodeChar c ≠ [] := by
  intro h
  have hlength := String.length_utf8EncodeChar c
  rw [h] at hlength
  exact absurd hlength (Nat.ne_of_lt c.utf8Size_pos)

/-- The byte of the slash stands in no character but the slash. -/
theorem slash_not_mem_utf8EncodeChar (h : c ≠ '/') : 0x2f ∉ String.utf8EncodeChar c := by
  have hslash : c.val.toNat ≠ 47 := fun hc => h (Char.ext (UInt32.toNat.inj hc))
  have hbyte {n : ℕ} (heq : (0x2f : UInt8) = UInt8.ofNat n) : n % 256 = 47 := by
    have htoNat := congrArg UInt8.toNat heq
    rw [UInt8.toNat_ofNat'] at htoNat
    exact htoNat.symm
  intro hmem
  unfold String.utf8EncodeChar at hmem
  simp only at hmem
  split_ifs at hmem
  -- a byte by itself is the code of its character, and all others are 0x80 or more
  all_goals simp only [List.mem_cons, List.not_mem_nil, or_false] at hmem
  · have := hbyte hmem
    omega
  · rcases hmem with heq | heq <;> have := hbyte heq <;> omega
  · rcases hmem with heq | heq | heq <;> have := hbyte heq <;> omega
  · rcases hmem with heq | heq | heq | heq <;> have := hbyte heq <;> omega

/-- Bytes are cut at slashes where their characters are. -/
theorem splitOn_flatMap_utf8EncodeChar (cs : List Char) :
    (cs.flatMap String.utf8EncodeChar).splitOn 0x2f
      = (cs.splitOn '/').map fun piece => piece.flatMap String.utf8EncodeChar := by
  have hnot {cs : List Char} (h : '/' ∉ cs) : 0x2f ∉ cs.flatMap String.utf8EncodeChar := by
    intro hmem
    obtain ⟨c, hc, hbyte⟩ := List.mem_flatMap.1 hmem
    exact slash_not_mem_utf8EncodeChar (fun hslash => h (hslash ▸ hc)) hbyte
  by_cases h : '/' ∈ cs
  · obtain ⟨front, rest, hcs, hfront⟩ := List.eq_append_cons_of_mem h
    have hslash : String.utf8EncodeChar '/' = [0x2f] := rfl
    rw [hcs, List.flatMap_append, List.flatMap_cons, hslash, List.singleton_append,
      List.splitOn_append_cons_self_of_not_mem (hnot hfront),
      List.splitOn_append_cons_self_of_not_mem hfront, List.map_cons,
      splitOn_flatMap_utf8EncodeChar rest]
  · rw [List.splitOn_eq_singleton h, List.splitOn_eq_singleton (hnot h), List.map_singleton]
termination_by cs.length
decreasing_by
  rw [hcs, List.length_append, List.length_cons]
  omega

/-! ## Bytes that are shown -/

/-- The bytes of a character that is shown already are passed over. -/
theorem lossyChars_append_of_length {n : ℕ} (h : front.length = n) (rest : List UInt8) :
    lossyChars n (front ++ rest) = lossyChars 0 rest := by
  induction front generalizing n with
  | nil =>
    subst h
    rfl
  | cons b front ih =>
    subst h
    exact ih rfl

/-- Bytes that begin with a character are its own and some others. -/
theorem exists_eq_append_of_decode (h : bytes.toByteArray.utf8DecodeChar? 0 = some c) :
    ∃ rest, bytes = String.utf8EncodeChar c ++ rest := by
  have hsome : (bytes.toByteArray.utf8DecodeChar? 0).isSome = true := by
    rw [h]
    rfl
  have hchar : bytes.toByteArray.utf8DecodeChar 0 hsome = c := by
    simp only [ByteArray.utf8DecodeChar, h, Option.get_some]
  have hextract := @ByteArray.utf8EncodeChar_utf8DecodeChar bytes.toByteArray 0 hsome
  rw [hchar, Nat.zero_add] at hextract
  have htake : bytes.take c.utf8Size = String.utf8EncodeChar c := by
    have hlists := congrArg (fun array => array.data.toList) hextract
    simpa using hlists.symm
  exact ⟨bytes.drop c.utf8Size, by rw [← htake, List.take_append_drop]⟩

/-- The bytes of a character are shown as it, whatever comes behind them. -/
theorem lossyChars_utf8EncodeChar_append (c : Char) (rest : List UInt8) :
    lossyChars 0 (String.utf8EncodeChar c ++ rest) = c :: lossyChars 0 rest := by
  have hdecode : (String.utf8EncodeChar c ++ rest).toByteArray.utf8DecodeChar? 0 = some c := by
    rw [List.toByteArray_append]
    exact ByteArray.utf8DecodeChar?_utf8EncodeChar_append
  have hlength := String.length_utf8EncodeChar c
  obtain ⟨lead, tail, hbytes⟩ := List.exists_cons_of_ne_nil (utf8EncodeChar_ne_nil c)
  rw [hbytes] at hdecode hlength ⊢
  rw [List.cons_append] at hdecode ⊢
  have htail : tail.length = c.utf8Size - 1 := by
    rw [← hlength, List.length_cons, Nat.add_sub_cancel]
  simp only [lossyChars, hdecode]
  rw [lossyChars_append_of_length htail]

/-- A text is shown as itself. -/
theorem lossy_utf8 (s : String) : lossy (utf8 s) = s := by
  have hchars (cs : List Char) : lossyChars 0 (cs.flatMap String.utf8EncodeChar) = cs := by
    induction cs with
    | nil => rfl
    | cons c cs ih => rw [List.flatMap_cons, lossyChars_utf8EncodeChar_append, ih]
  rw [lossy, utf8, hchars, String.ofList_toList]

/-- Different texts have different bytes. -/
theorem utf8_injective : Function.Injective utf8 :=
  Function.LeftInverse.injective lossy_utf8

/-- A character that is shown is the sign for a broken one, or its bytes are there. -/
theorem mem_lossyChars {n : ℕ} (h : c ∈ lossyChars n bytes) :
    c = brokenSign ∨ String.utf8EncodeChar c ⊆ bytes := by
  fun_induction lossyChars n bytes with
  | case1 => cases h
  | case2 skip b rest ih => exact (ih h).imp_right (List.subset_cons_of_subset _)
  | case3 lead rest c' hdecode ih =>
    rcases List.mem_cons.1 h with rfl | h
    · obtain ⟨behind, hbytes⟩ := exists_eq_append_of_decode hdecode
      rw [hbytes]
      exact Or.inr (List.subset_append_left _ _)
    · exact (ih h).imp_right (List.subset_cons_of_subset _)
  | case4 lead rest hdecode ih =>
    rcases List.mem_cons.1 h with rfl | h
    · exact Or.inl rfl
    · exact (ih h).imp_right (List.subset_cons_of_subset _)

/-- If no broken character is shown, the bytes are those of the characters that are. -/
theorem flatMap_lossyChars {n : ℕ} (h : brokenSign ∉ lossyChars n bytes) :
    (lossyChars n bytes).flatMap String.utf8EncodeChar = bytes.drop n := by
  fun_induction lossyChars n bytes with
  | case1 n => exact List.drop_nil.symm
  | case2 skip b rest ih => exact ih h
  | case3 lead rest c' hdecode ih =>
    rw [List.mem_cons, not_or] at h
    obtain ⟨behind, hbytes⟩ := exists_eq_append_of_decode hdecode
    -- behind the bytes of the character come those that are shown next
    have hdrop : (lead :: rest).drop c'.utf8Size = behind := by
      rw [hbytes, ← String.length_utf8EncodeChar c', List.drop_left]
    have hrest : rest.drop (c'.utf8Size - 1) = behind := by
      rwa [← Nat.succ_pred_eq_of_pos c'.utf8Size_pos, List.drop_succ_cons] at hdrop
    rw [List.flatMap_cons, ih h.2, hrest, ← hbytes, List.drop_zero]
  | case4 lead rest hdecode ih => exact absurd List.mem_cons_self h

/-- If no broken character is shown, the bytes are those of the text that is. -/
theorem utf8_lossy_of_not_mem (h : brokenSign ∉ (lossy bytes).toList) :
    utf8 (lossy bytes) = bytes := by
  rw [lossy, String.toList_ofList] at h
  rw [utf8, lossy, String.toList_ofList, flatMap_lossyChars h, List.drop_zero]

/-- What is shown as a text without the sign for broken characters is that text. -/
theorem lossy_eq_iff {s : String} (h : brokenSign ∉ s.toList) : lossy bytes = s ↔ bytes = utf8 s := by
  constructor
  · rintro rfl
    exact (utf8_lossy_of_not_mem h).symm
  · rintro rfl
    exact lossy_utf8 s

end Weave.Text
