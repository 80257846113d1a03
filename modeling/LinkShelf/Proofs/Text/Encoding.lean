import LinkShelf.Storage.FileSystem

/-!
Texts as bytes. Main statements: a text without carriage returns is decoded from its own encoding
(`decodeLines_toUTF8`), and an ASCII text has one byte for each character (`toList_toUTF8_ascii`).
-/

namespace LinkShelf.Text

theorem decode_toUTF8 (s : String) : decode s.toUTF8 = .ok s := by
  have hvalid : String.fromUTF8? s.toUTF8 = some s := by
    unfold String.fromUTF8?
    split
    · rfl
    · rename_i h
      exact absurd s.isValidUTF8 h
  rw [decode, hvalid]

theorem joinLineEnds_eq_self {cs : List Char} (hcs : '\r' ∉ cs) : joinLineEnds cs = cs := by
  induction cs with
  | nil => rfl
  | cons c cs ih =>
      rw [List.mem_cons, not_or] at hcs
      rw [joinLineEnds.eq_2 c cs (fun _ h _ => hcs.1 h.symm), if_neg (Ne.symm hcs.1), ih hcs.2]

theorem decodeLines_toUTF8 {s : String} (hs : '\r' ∉ s.toList) :
    decodeLines s.toUTF8 = .ok s := by
  rw [decodeLines, decode_toUTF8]
  simp only [Except.map, joinLineEnds_eq_self hs, String.ofList_toList]

theorem byteArray_toList_loop (bytes : ByteArray) (i : Nat) (found : List UInt8) :
    ByteArray.toList.loop bytes i found = found.reverse ++ bytes.data.toList.drop i := by
  fun_induction ByteArray.toList.loop bytes i found with
  | case1 i found hi ih =>
      have hget : bytes.get! i = bytes.data.toList[i] := by
        simp [ByteArray.get!, getElem!_pos bytes.data i hi]
      rw [ih, List.reverse_cons, List.append_assoc, hget, List.singleton_append,
        List.getElem_cons_drop]
  | case2 i found hi =>
      have hsize : bytes.data.toList.length ≤ i := Nat.le_of_not_lt hi
      rw [List.drop_eq_nil_of_le hsize, List.append_nil]

theorem toList_toUTF8 (s : String) :
    s.toUTF8.toList = s.toList.flatMap String.utf8EncodeChar := by
  have hbytes : s.toUTF8 = (s.toList.flatMap String.utf8EncodeChar).toByteArray := by
    rw [String.toUTF8_eq_toByteArray, ← String.utf8Encode_toList]
    rfl
  rw [ByteArray.toList, byteArray_toList_loop, hbytes, List.toList_data_toByteArray]
  rfl

theorem utf8EncodeChar_ascii {c : Char} (hc : c.toNat < 128) :
    String.utf8EncodeChar c = [UInt8.ofNat c.toNat] := by
  have hsize : c.utf8Size = 1 :=
    Char.utf8Size_eq_one_iff.mpr (UInt32.le_iff_toNat_le.mpr (Nat.le_of_lt_succ hc))
  exact String.utf8EncodeChar_eq_singleton hsize

theorem toList_toUTF8_ascii {cs : List Char} (hcs : ∀ c ∈ cs, c.toNat < 128) :
    (String.ofList cs).toUTF8.toList = cs.map fun c => UInt8.ofNat c.toNat := by
  rw [toList_toUTF8, String.toList_ofList]
  induction cs with
  | nil => rfl
  | cons c cs ih =>
      rw [List.flatMap_cons, utf8EncodeChar_ascii (hcs c (by simp)),
        ih fun d hd => hcs d (by simp [hd])]
      rfl

end LinkShelf.Text
