import Memberwise.Selection.Prompt
import Mathlib.Data.List.Basic

/-!
# Texts as bytes

Files hold bytes, and the prompt shows and reads lists of them. Bytes are those of one text or of
none. The bytes of a text are those of its characters in turn, so they join as the texts do; what
was encoded can be decoded, and a line feed in the bytes is a line feed of the text.
-/

namespace Memberwise

namespace Text

theorem toList_loop_eq (bytes : ByteArray) (i : Nat) (read : List UInt8) :
    ByteArray.toList.loop bytes i read = read.reverse ++ bytes.data.toList.drop i := by
  fun_induction ByteArray.toList.loop bytes i read with
  | case1 i read h ih =>
    have hi : i < bytes.data.toList.length := by simpa using h
    have hbyte : bytes.get! i = bytes.data.toList[i] := by simp [ByteArray.get!, h]
    rw [ih, List.drop_eq_getElem_cons hi, hbyte, List.reverse_cons, List.append_assoc]
    rfl
  | case2 i read h =>
    have hle : bytes.data.toList.length ≤ i := by simpa using Nat.le_of_not_lt h
    rw [List.drop_eq_nil_of_le hle, List.append_nil]

theorem toList_eq_data_toList (bytes : ByteArray) : bytes.toList = bytes.data.toList :=
  toList_loop_eq bytes 0 []

/-! ## Bytes that are a text -/

theorem fromUTF8?_toUTF8 (text : String) : String.fromUTF8? text.toUTF8 = some text := by
  have hvalid : text.toUTF8.IsValidUTF8 := text.isValidUTF8
  rw [String.fromUTF8?, dif_pos hvalid]
  rfl

theorem toUTF8_of_fromUTF8? {bytes : ByteArray} {text : String}
    (h : String.fromUTF8? bytes = some text) : text.toUTF8 = bytes := by
  rw [String.fromUTF8?] at h
  split at h
  · rw [← Option.some.inj h]
    rfl
  · simp at h

theorem exists_fromUTF8? {bytes : ByteArray} (h : bytes.IsValidUTF8) :
    ∃ text, String.fromUTF8? bytes = some text :=
  ⟨_, dif_pos h⟩

theorem fromUTF8?_eq_none {bytes : ByteArray} (h : ¬ bytes.IsValidUTF8) :
    String.fromUTF8? bytes = none := dif_neg h

end Text

namespace Prompt

theorem encode_eq_flatMap (text : List Char) :
    encode text = text.flatMap String.utf8EncodeChar := by
  rw [encode, Text.toList_eq_data_toList, String.toUTF8_eq_toByteArray, String.toByteArray_ofList,
    List.utf8Encode, List.toList_data_toByteArray]

@[simp] theorem encode_nil : encode [] = [] := encode_eq_flatMap []

@[simp] theorem encode_append (front back : List Char) :
    encode (front ++ back) = encode front ++ encode back := by
  simp only [encode_eq_flatMap, List.flatMap_append]

theorem encode_lineFeed : encode ['\n'] = [10] := by
  rw [encode_eq_flatMap]
  decide

theorem encode_ne_nil {text : List Char} (h : text ≠ []) : encode text ≠ [] := by
  obtain ⟨c, rest, rfl⟩ := List.exists_cons_of_ne_nil h
  rw [encode_eq_flatMap, List.flatMap_cons]
  exact List.append_ne_nil_of_left_ne_nil String.utf8EncodeChar_ne_nil _

theorem decode?_encode (text : List Char) : decode? (encode text) = some (String.ofList text) := by
  have hbytes : (⟨(encode text).toArray⟩ : ByteArray) = (String.ofList text).toUTF8 := by
    rw [encode, Text.toList_eq_data_toList]
  rw [decode?, hbytes, Text.fromUTF8?_toUTF8]

theorem eq_lineFeed_of_mem_utf8EncodeChar {c : Char} (h : 10 ∈ String.utf8EncodeChar c) :
    c = '\n' := by
  have hbyte : ∀ n : Nat, (10 : UInt8) = UInt8.ofNat n → n % 256 = 10 := by
    intro n hn
    simpa using (congrArg UInt8.toNat hn).symm
  have hvalue : c.val.toNat = 10 := by
    rw [String.utf8EncodeChar] at h
    split at h
    · have := hbyte _ (List.mem_singleton.mp h)
      omega
    -- every byte of a longer encoding is 128 or more
    · exfalso
      split at h
      · simp only [List.mem_cons, List.not_mem_nil, or_false] at h
        rcases h with h | h <;> have := hbyte _ h <;> omega
      · split at h <;> simp only [List.mem_cons, List.not_mem_nil, or_false] at h
        · rcases h with h | h | h <;> have := hbyte _ h <;> omega
        · rcases h with h | h | h | h <;> have := hbyte _ h <;> omega
  exact Char.ext (UInt32.toNat_inj.mp hvalue)

theorem lineFeed_not_mem_encode {text : List Char} (h : '\n' ∉ text) : 10 ∉ encode text := by
  rw [encode_eq_flatMap]
  intro hmem
  obtain ⟨c, hc, hbyte⟩ := List.mem_flatMap.mp hmem
  exact h (eq_lineFeed_of_mem_utf8EncodeChar hbyte ▸ hc)

end Prompt

end Memberwise
