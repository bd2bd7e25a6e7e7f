import Mathlib

/-! Texts as bytes. Decoding gives back exactly the texts that were encoded, and no character makes
a byte that stands for a control character, unless it is one. -/

namespace WaveletRaster

theorem byteArray_toList_loop (bytes : ByteArray) (i : Nat) (read : List UInt8) :
    ByteArray.toList.loop bytes i read = read.reverse ++ bytes.data.toList.drop i := by
  induction i, read using ByteArray.toList.loop.induct bytes with
  | case1 i read hi ih =>
    have hlt : i < bytes.data.toList.length := by simpa using hi
    have hget : bytes.get! i = bytes.data.toList[i] := getElem!_pos bytes.data i hi
    rw [ByteArray.toList.loop, if_pos hi, ih, List.drop_eq_getElem_cons hlt, hget]
    simp
  | case2 i read hi =>
    have hnone : bytes.data.toList.drop i = [] := List.drop_of_length_le (by simpa using hi)
    rw [ByteArray.toList.loop, if_neg hi, hnone, List.append_nil]

theorem byteArray_toList_eq (bytes : ByteArray) : bytes.toList = bytes.data.toList :=
  byteArray_toList_loop bytes 0 []

theorem byteArray_toList_append (front back : ByteArray) :
    (front ++ back).toList = front.toList ++ back.toList := by
  simp only [byteArray_toList_eq, ByteArray.toList_data_append]

theorem fromUTF8?_eq_some_iff {bytes : ByteArray} {text : String} :
    String.fromUTF8? bytes = some text ↔ bytes = text.toUTF8 := by
  rw [String.fromUTF8?]
  split_ifs with h
  · rw [Option.some_inj, ← String.toByteArray_inj]
    rfl
  · refine iff_of_false nofun ?_
    rintro rfl
    exact h text.isValidUTF8

def lineBytes (text : String) : List UInt8 := text.toUTF8.toList

theorem fromUTF8?_lineBytes (text : String) :
    String.fromUTF8? ⟨(lineBytes text).toArray⟩ = some text := by
  rw [fromUTF8?_eq_some_iff, lineBytes, byteArray_toList_eq]

theorem lineBytes_eq (text : String) :
    lineBytes text = text.toList.flatMap String.utf8EncodeChar := by
  have hbytes : text.toUTF8 = (text.toList.flatMap String.utf8EncodeChar).toByteArray :=
    String.utf8Encode_toList.symm
  rw [lineBytes, byteArray_toList_eq, hbytes]
  simp

theorem le_of_mem_utf8EncodeChar {c : Char} (hc : ' ' ≤ c) {b : UInt8}
    (hb : b ∈ String.utf8EncodeChar c) : 32 ≤ b := by
  have hcode : 32 ≤ c.val.toNat := hc
  rw [UInt8.le_iff_toNat_le]
  rw [String.utf8EncodeChar] at hb
  generalize c.val.toNat = n at hcode hb
  split_ifs at hb with hascii
  · obtain rfl := List.mem_singleton.mp hb
    simp only [UInt8.toNat_ofNat', UInt8.reduceToNat]
    omega
  all_goals
    simp only [List.mem_cons, List.not_mem_nil, or_false] at hb
    rcases hb with rfl | rfl | rfl | rfl <;>
      simp only [UInt8.toNat_ofNat', UInt8.reduceToNat] <;> omega

theorem le_of_mem_lineBytes {text : String} (h : ∀ c ∈ text.toList, ' ' ≤ c) {b : UInt8}
    (hb : b ∈ lineBytes text) : 32 ≤ b := by
  rw [lineBytes_eq] at hb
  obtain ⟨c, hc, hb⟩ := List.mem_flatMap.mp hb
  exact le_of_mem_utf8EncodeChar (h c hc) hb

end WaveletRaster
