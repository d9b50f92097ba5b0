import AssetIntegrity.Path.Classifier
import AssetIntegrity.Proofs.Text.Utf8
/-!
# Letter case — texts and bytes in lower case

Only the letters of ASCII have a lower case here, as characters and as bytes, and the two agree: the bytes of a text in
lower case are its bytes in lower case (`encode_toLower`).  Bytes whose lower case is that of a text are a text
themselves (`encode_eq_map_lowerByte_iff`), since the bytes of all other characters are no letters.
-/
namespace AssetIntegrity
namespace Classifier

/-! ## Bytes -/

theorem lowerByte_of_le {byte : UInt8} (h : 128 ≤ byte.toNat) : lowerByte byte = byte := by
  refine if_neg fun hletter => ?_
  have hle : byte.toNat ≤ 0x5A := UInt8.le_iff_toNat_le.1 hletter.2
  omega

theorem map_lowerByte_of_le {bytes : List UInt8} (h : ∀ byte ∈ bytes, 128 ≤ byte.toNat) :
    bytes.map lowerByte = bytes :=
  (List.map_congr_left fun byte hbyte => lowerByte_of_le (h byte hbyte)).trans (List.map_id _)

theorem toNat_lowerByte_le_iff {byte : UInt8} : (lowerByte byte).toNat ≤ 127 ↔ byte.toNat ≤ 127 := by
  unfold lowerByte
  split
  · rename_i hletter
    have hle : byte.toNat ≤ 0x5A := UInt8.le_iff_toNat_le.1 hletter.2
    have hadd : (byte + 0x20).toNat = (byte.toNat + 0x20) % 256 := UInt8.toNat_add byte 0x20
    omega
  · rfl

/-- What is in front of the small letters is the lower case of itself alone, if at all. -/
theorem eq_of_lowerByte_eq {byte lower : UInt8} (h : lowerByte byte = lower) (hlower : lower.toNat < 0x61) :
    byte = lower := by
  unfold lowerByte at h
  split at h
  · rename_i hletter
    have hge : 0x41 ≤ byte.toNat := UInt8.le_iff_toNat_le.1 hletter.1
    have hle : byte.toNat ≤ 0x5A := UInt8.le_iff_toNat_le.1 hletter.2
    have hadd : (byte + 0x20).toNat = (byte.toNat + 0x20) % 256 := UInt8.toNat_add byte 0x20
    rw [h] at hadd
    omega
  · exact h

/-! ## Characters -/

theorem forall_ascii {P : Char → Prop} (h : ∀ n < 128, P (Char.ofNat n)) {c : Char} (hc : c.val.toNat ≤ 127) : P c := by
  have hchar := h c.toNat (Nat.lt_succ_of_le hc)
  rwa [Char.ofNat_toNat] at hchar

theorem toLower_of_lt {c : Char} (h : 127 < c.val.toNat) : c.toLower = c := by
  refine dif_neg fun hletter => ?_
  have hle : c.val.toNat ≤ 90 := UInt32.le_iff_toNat_le.1 hletter.2
  omega

theorem toLower_toLower (c : Char) : c.toLower.toLower = c.toLower := by
  by_cases hc : c.val.toNat ≤ 127
  · exact forall_ascii (P := fun c => c.toLower.toLower = c.toLower) (by decide +kernel) hc
  · rw [toLower_of_lt (Nat.lt_of_not_le hc), toLower_of_lt (Nat.lt_of_not_le hc)]

theorem toLower_eq_dot_iff (c : Char) : c.toLower = '.' ↔ c = '.' := by
  by_cases hc : c.val.toNat ≤ 127
  · exact forall_ascii (P := fun c => c.toLower = '.' ↔ c = '.') (by decide +kernel) hc
  · rw [toLower_of_lt (Nat.lt_of_not_le hc)]

/-- **A character and its bytes have the same lower case.** -/
theorem map_lowerByte_encodeChar (c : Char) :
    (String.utf8EncodeChar c).map lowerByte = String.utf8EncodeChar c.toLower := by
  by_cases hc : c.val.toNat ≤ 127
  · exact forall_ascii (P := fun c => (String.utf8EncodeChar c).map lowerByte = String.utf8EncodeChar c.toLower)
      (by decide +kernel) hc
  · have hc := Nat.lt_of_not_le hc
    rw [toLower_of_lt hc]
    exact map_lowerByte_of_le fun byte hbyte => Utf8.le_of_mem_encodeChar hc hbyte

theorem exists_encodeChar_of_map_lowerByte {c : Char} {bytes : List UInt8}
    (h : bytes.map lowerByte = String.utf8EncodeChar c) : ∃ written, bytes = String.utf8EncodeChar written := by
  by_cases hc : c.val.toNat ≤ 127
  · rw [Utf8.encodeChar_of_le hc] at h
    obtain ⟨byte, rest, rfl, hbyte, hrest⟩ := List.map_eq_cons_iff.1 h
    obtain rfl := List.map_eq_nil_iff.1 hrest
    have hle : (lowerByte byte).toNat ≤ 127 := by
      rw [hbyte, UInt8.toNat_ofNat']
      omega
    exact ⟨Char.ofNat byte.toNat, (Utf8.encodeChar_ofByte (toNat_lowerByte_le_iff.1 hle)).symm⟩
  · -- no byte of a character of several bytes is a letter, and none of them is the lower case of one
    have hle : ∀ byte ∈ bytes, 128 ≤ byte.toNat := by
      intro byte hbyte
      have hlower := Utf8.le_of_mem_encodeChar (Nat.lt_of_not_le hc) (h ▸ List.mem_map_of_mem (f := lowerByte) hbyte)
      by_contra hlt
      exact absurd (toNat_lowerByte_le_iff.2 (Nat.le_of_lt_succ (Nat.lt_of_not_le hlt))) (Nat.not_le.2 hlower)
    exact ⟨c, (map_lowerByte_of_le hle).symm.trans h⟩

/-! ## Texts -/

theorem toList_toLower (text : String) : text.toLower.toList = text.toList.map Char.toLower := String.toList_map

/-- **The bytes of a text in lower case are its bytes in lower case.** -/
theorem encode_toLower (text : String) : Utf8.encode text.toLower = (Utf8.encode text).map lowerByte := by
  rw [Utf8.encode_eq_flatMap, Utf8.encode_eq_flatMap, toList_toLower, List.flatMap_map, List.map_flatMap]
  exact congrArg (text.toList.flatMap ·) (funext fun c => (map_lowerByte_encodeChar c).symm)

theorem exists_text_of_map_lowerByte : ∀ {text : Text} {bytes : List UInt8},
    bytes.map lowerByte = text.flatMap String.utf8EncodeChar →
      ∃ written : Text, bytes = written.flatMap String.utf8EncodeChar
  | [], bytes, h => ⟨[], List.map_eq_nil_iff.1 h⟩
  | c :: text, bytes, h => by
    rw [List.flatMap_cons] at h
    obtain ⟨ofChar, rest, rfl, hchar, hrest⟩ := List.map_eq_append_iff.1 h
    obtain ⟨written, rfl⟩ := exists_encodeChar_of_map_lowerByte hchar
    obtain ⟨more, rfl⟩ := exists_text_of_map_lowerByte hrest
    exact ⟨written :: more, List.flatMap_cons.symm⟩

/-- **Bytes are a text in lower case exactly when they are a text** whose lower case it is. -/
theorem encode_eq_map_lowerByte_iff {lower : String} {bytes : List UInt8} :
    Utf8.encode lower = bytes.map lowerByte ↔ ∃ text, Utf8.decode? bytes = some text ∧ text.toLower = lower := by
  constructor
  · intro h
    have hbytes : bytes.map lowerByte = lower.toList.flatMap String.utf8EncodeChar := by
      rw [← h, Utf8.encode_eq_flatMap]
    obtain ⟨written, rfl⟩ := exists_text_of_map_lowerByte hbytes
    refine ⟨String.ofList written, Utf8.decode?_eq_some_iff.2 (Utf8.encode_ofList written), Utf8.encode_injective ?_⟩
    rw [encode_toLower, Utf8.encode_ofList, h]
  · rintro ⟨text, htext, rfl⟩
    rw [encode_toLower, Utf8.decode?_eq_some_iff.1 htext]

end Classifier
end AssetIntegrity
