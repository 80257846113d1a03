import Mathlib.Algebra.Ring.Nat
import LinkShelf.Proofs.Number.Digits
import LinkShelf.Storage.RecordDirectory

/-!
The names of record files: they are shown, those of temporary files are not, and keys with different
digests have different names.
-/

namespace LinkShelf.RecordDirectory

/-- What holds of the sixteen digits holds of all characters of a padded number. -/
theorem of_mem_hexPadded {p : Char → Prop} (hdigit : ∀ m < 16, p m.digitChar) {width n : Nat}
    {c : Char} (hc : c ∈ Text.hexPadded width n) : p c := by
  rw [Text.hexPadded, List.mem_append] at hc
  rcases hc with hc | hc
  · rw [List.eq_of_mem_replicate hc]
    exact hdigit 0 (by decide)
  · induction n using Nat.strongRecOn with
    | ind n ih =>
        by_cases hsmall : n < 16
        · rw [Nat.toDigits_of_lt_base hsmall, List.mem_singleton] at hc
          rw [hc]
          exact hdigit n hsmall
        · rw [Nat.toDigits_of_base_le (by decide) (by omega), List.mem_append,
            List.mem_singleton] at hc
          rcases hc with hc | rfl
          · exact ih (n / 16) (by omega) hc
          · exact hdigit _ (Nat.mod_lt n (by decide))

theorem length_hexPadded {width n : Nat} (hwidth : 0 < width) (hn : n < 16 ^ width) :
    (Text.hexPadded width n).length = width := by
  have hlength := (Nat.length_toDigits_le_iff (by decide) hwidth).mpr hn
  simp only [Text.hexPadded, List.length_append, List.length_replicate]
  omega

theorem hexPadded_ne_nil (width n : Nat) : Text.hexPadded width n ≠ [] := by
  simp [Text.hexPadded, Nat.toDigits_ne_nil]

/-- A digest starts with a digit. -/
theorem exists_digest_eq_cons (s : String) :
    ∃ c rest, (Digest.ofText s).toList = c :: rest ∧ c ≠ '.' := by
  rw [Digest.ofText, String.toList_ofList, Digest.ofBytes, List.flatMap_cons]
  obtain ⟨c, more, hfirst⟩ := List.exists_cons_of_ne_nil (hexPadded_ne_nil 8 _)
  refine ⟨c, more ++ _, by rw [hfirst]; rfl, ?_⟩
  exact of_mem_hexPadded (p := (· ≠ '.')) (by decide) (by rw [hfirst]; exact List.mem_cons_self)

theorem length_digest (s : String) : (Digest.ofText s).toList.length = 40 := by
  have hword : ∀ w : UInt32, (Text.hexPadded 8 w.toNat).length = 8 :=
    fun w => length_hexPadded (by decide) w.toNat_lt
  rw [Digest.ofText, String.toList_ofList, Digest.ofBytes]
  simp only [List.flatMap_cons, List.flatMap_nil, List.length_append, hword, List.length_nil]

theorem of_mem_digest {p : Char → Prop} (hdigit : ∀ m < 16, p m.digitChar) {s : String} {c : Char}
    (hc : c ∈ (Digest.ofText s).toList) : p c := by
  rw [Digest.ofText, String.toList_ofList, Digest.ofBytes] at hc
  obtain ⟨w, -, hc⟩ := List.mem_flatMap.mp hc
  exact of_mem_hexPadded hdigit hc

theorem utf8ByteSize_ofList {cs : List Char} (hcs : ∀ c ∈ cs, c.utf8Size = 1) :
    (String.ofList cs).utf8ByteSize = cs.length := by
  induction cs with
  | nil => rfl
  | cons c cs ih =>
      obtain ⟨hc, hcs⟩ := List.forall_mem_cons.mp hcs
      rw [String.ofList_cons, String.utf8ByteSize_append, ih hcs, String.utf8ByteSize_singleton,
        hc, List.length_cons, Nat.add_comm]

/-- All names of record files take the same room. -/
theorem utf8ByteSize_fileName (keyText : String) : (fileName keyText).utf8ByteSize = 45 := by
  have hdigest : (Digest.ofText keyText).utf8ByteSize = 40 := by
    rw [← String.ofList_toList (s := Digest.ofText keyText), utf8ByteSize_ofList, length_digest]
    exact fun c => of_mem_digest (p := (·.utf8Size = 1)) (by decide)
  rw [fileName, String.utf8ByteSize_append, hdigest]
  rfl

theorem end_not_mem_fileName (keyText : String) : '\x00' ∉ (fileName keyText).toList := by
  rw [fileName, String.toList_append, List.mem_append]
  rintro (hend | hend)
  · exact of_mem_digest (p := (· ≠ '\x00')) (by decide) hend rfl
  · revert hend
    decide

theorem isRecordName_fileName (keyText : String) : isRecordName (fileName keyText) = true := by
  obtain ⟨c, rest, hdigest, hc⟩ := exists_digest_eq_cons keyText
  simp [isRecordName, fileName, hdigest, hc]

theorem ne_up_of_isRecordName {name : String} (hname : isRecordName name = true) : name ≠ ".." := by
  rintro rfl
  revert hname
  decide

theorem fileName_ne_up (keyText : String) : fileName keyText ≠ ".." :=
  ne_up_of_isRecordName (isRecordName_fileName keyText)

theorem isRecordName_temporaryName (n : Nat) : isRecordName (temporaryName n) = false := by
  simp [isRecordName, temporaryName]

theorem temporaryName_ne_up (n : Nat) : temporaryName n ≠ ".." := by
  intro hname
  have hlist := congrArg (List.drop 1 ·.toList) hname
  simp [temporaryName] at hlist

theorem fileName_inj {keyText other : String} :
    fileName keyText = fileName other ↔ Digest.ofText keyText = Digest.ofText other := by
  rw [fileName, fileName]
  exact String.append_left_inj extension

end LinkShelf.RecordDirectory
