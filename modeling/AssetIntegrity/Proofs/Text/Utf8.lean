import AssetIntegrity.Text.Utf8
import Mathlib.Tactic.Common
/-!
# UTF-8 — text and its bytes

The bytes of a text are those of its characters one after the other (`encode_eq_flatMap`), and reading them gives the
text back, from these bytes only (`decode?_eq_some_iff`).  A byte below 128 is a character by itself, and a character of
several bytes has none below 128 (`encodeChar_ofByte`, `le_of_mem_encodeChar`).
-/
namespace AssetIntegrity
namespace Utf8

theorem toList_loop (bytes : ByteArray) (i : Nat) (read : List UInt8) :
    ByteArray.toList.loop bytes i read = read.reverse ++ bytes.data.toList.drop i := by
  fun_induction ByteArray.toList.loop bytes i read with
  | case1 i read hi ih =>
    have hlength : i < bytes.data.toList.length := by
      rw [Array.length_toList]
      exact hi
    have hget : bytes.get! i = bytes.data.toList[i] := by
      show bytes.data[i]! = _
      rw [getElem!_pos bytes.data i hi, Array.getElem_toList]
    rw [ih, List.drop_eq_getElem_cons hlength, List.reverse_cons, List.append_assoc, hget, List.singleton_append]
  | case2 i read hi =>
    have hlength : bytes.data.toList.length ≤ i := by
      rw [Array.length_toList]
      exact Nat.le_of_not_lt hi
    rw [List.drop_eq_nil_of_le hlength, List.append_nil]

theorem encode_eq_data (text : String) : encode text = text.toByteArray.data.toList := by
  show ByteArray.toList.loop text.toByteArray 0 [] = _
  rw [toList_loop, List.drop_zero, List.reverse_nil, List.nil_append]

/-- **The bytes of a text are those of its characters.** -/
theorem encode_eq_flatMap (text : String) : encode text = text.toList.flatMap String.utf8EncodeChar := by
  rw [encode_eq_data, ← String.utf8Encode_toList]
  exact List.toList_data_toByteArray

theorem encode_ofList (text : Text) : encode (String.ofList text) = text.flatMap String.utf8EncodeChar := by
  rw [encode_eq_flatMap, String.toList_ofList]

theorem encode_injective : Function.Injective encode := by
  intro a b h
  rw [encode_eq_data, encode_eq_data] at h
  exact String.toByteArray_inj.1 (ByteArray.ext (Array.toList_inj.1 h))

/-- **Reading bytes is writing text backwards.** -/
theorem decode?_eq_some_iff {bytes : List UInt8} {text : String} : decode? bytes = some text ↔ encode text = bytes := by
  unfold decode? String.fromUTF8?
  constructor
  · intro h
    split at h
    · rw [← Option.some.inj h, encode_eq_data]
      rfl
    · cases h
  · rintro rfl
    have hbytes : ByteArray.mk (encode text).toArray = text.toByteArray :=
      ByteArray.ext (by rw [encode_eq_data, Array.toArray_toList])
    rw [dif_pos (hbytes ▸ text.isValidUTF8)]
    exact congrArg some (String.toByteArray_inj.1 hbytes)

/-! ## Bytes below 128 -/

theorem encodeChar_of_le {c : Char} (h : c.val.toNat ≤ 127) : String.utf8EncodeChar c = [UInt8.ofNat c.val.toNat] := by
  unfold String.utf8EncodeChar
  exact if_pos h

theorem encodeChar_ofByte {byte : UInt8} (h : byte.toNat ≤ 127) :
    String.utf8EncodeChar (Char.ofNat byte.toNat) = [byte] := by
  have hval : (Char.ofNat byte.toNat).val.toNat = byte.toNat := by
    unfold Char.ofNat
    rw [dif_pos (.inl (by omega))]
    rfl
  rw [encodeChar_of_le (by omega), hval, UInt8.ofNat_toNat]

/-- **A character of several bytes has none below 128.** -/
theorem le_of_mem_encodeChar {c : Char} (h : 127 < c.val.toNat) {byte : UInt8}
    (hbyte : byte ∈ String.utf8EncodeChar c) : 128 ≤ byte.toNat := by
  have hofNat : ∀ n, 128 ≤ n % 256 → 128 ≤ (UInt8.ofNat n).toNat := fun n hn => by rwa [UInt8.toNat_ofNat']
  unfold String.utf8EncodeChar at hbyte
  simp only [if_neg (Nat.not_le.2 h)] at hbyte
  split at hbyte
  · simp only [List.mem_cons, List.not_mem_nil, or_false] at hbyte
    rcases hbyte with rfl | rfl <;> exact hofNat _ (by omega)
  · split at hbyte
    · simp only [List.mem_cons, List.not_mem_nil, or_false] at hbyte
      rcases hbyte with rfl | rfl | rfl <;> exact hofNat _ (by omega)
    · simp only [List.mem_cons, List.not_mem_nil, or_false] at hbyte
      rcases hbyte with rfl | rfl | rfl | rfl <;> exact hofNat _ (by omega)

end Utf8
end AssetIntegrity
