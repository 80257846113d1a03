import LinkShelf.Proofs.Bookmark.Decoding
import LinkShelf.Proofs.Json.ReadParts
import LinkShelf.Proofs.Number.Magnitude

/-!
Visit counts that are read from record files. Main statement: a count that was read can be written
again (`hasOversized_of_valueOfBytes`), as no number of a JSON text is read with more digits than
are accepted.
-/

namespace LinkShelf

namespace Json

variable {v : Json} {cs rest : List Char} {members : List (String × Json)}

/-- Whether the integer that a value stands for, if it stands for one, can be written. -/
def IsFit (v : Json) : Prop := ∀ n, v.toInteger = .ok n → Number.isOversized n = false

theorem isFit_of_error {fault : Failure} (h : v.toInteger = .error fault) : v.IsFit := by
  intro n hn
  cases h.symm.trans hn

theorem isFit_bool (b : Bool) : (bool b).IsFit := by
  intro n hn
  obtain rfl := Except.ok.inj hn
  have hsmall : (if b then 1 else 0 : Int).natAbs ≤ 1 := by
    cases b <;> decide
  rw [Number.isOversized_eq_false_iff]
  exact hsmall.trans_lt (Nat.one_lt_pow (by decide) (by decide))

theorem isFit_text (s : String) : (text s).IsFit := by
  intro n hn
  rw [toInteger] at hn
  split at hn
  · next m hread =>
      obtain rfl : m = n := Except.ok.inj hn
      exact Number.isOversized_of_readInteger hread
  · cases hn

theorem isFit_float {x : Binary64}
    (hx : ∀ value, x.value? = some value → Number.isOversized value.truncate = false) :
    (float x).IsFit := by
  intro n hn
  rw [toInteger] at hn
  split at hn
  · next value hvalue =>
      obtain rfl : value.truncate = n := Except.ok.inj hn
      exact hx value hvalue
  · cases hn

/-- Whether a value is fit, and so are the members of an object. -/
structure IsReadable (v : Json) : Prop where
  self : v.IsFit
  members : ∀ members, v = .object members → ∀ m ∈ members, m.2.IsFit

theorem IsFit.isReadable (hv : v.IsFit) (hkind : v.kind ≠ .object) : v.IsReadable := by
  refine ⟨hv, ?_⟩
  rintro members rfl
  exact absurd rfl hkind

theorem isReadable_object (hmembers : ∀ m ∈ members, m.2.IsFit) :
    (object members).IsReadable := by
  refine ⟨isFit_of_error rfl, ?_⟩
  rintro _ ⟨⟩
  exact hmembers

theorem isReadable_word : ∀ w ∈ words, w.2.IsReadable := by
  have hfloat (x : Binary64) (hx : x.value? = none) : (float x).IsReadable := by
    refine (isFit_float ?_).isReadable (by simp [kind])
    intro value hvalue
    cases hx.symm.trans hvalue
  simp only [words, List.forall_mem_cons]
  exact ⟨(isFit_of_error rfl).isReadable (by simp [kind]),
    (isFit_bool true).isReadable (by simp [kind]), (isFit_bool false).isReadable (by simp [kind]),
    hfloat _ rfl, hfloat _ rfl, hfloat _ rfl, List.forall_mem_nil _⟩

/-- A number that is read is fit, whether it is an integer or not. -/
theorem isReadable_of_readNumber (h : readNumber (some Number.maxDigits) cs = .ok (v, rest)) :
    v.IsReadable := by
  have hinteger : ∀ (negative : Bool) (whole : List Char),
      ¬ (some Number.maxDigits).any (· < whole.length) = true →
      (int (if negative then -(Text.numberOf whole : Int) else Text.numberOf whole)).IsFit := by
    intro negative whole hlength n hn
    obtain rfl := Except.ok.inj hn
    have hsize : (if negative then -(Text.numberOf whole : Int) else Text.numberOf whole).natAbs =
        Text.numberOf whole := by
      cases negative <;> simp
    exact Number.isOversized_of_digits (by simpa using hlength) hsize
  unfold readNumber at h
  dsimp only at h
  split at h
  · cases h
  · split at h
    · split at h
      · cases h
      · next hlength =>
          cases h
          exact (hinteger _ _ hlength).isReadable (by simp [kind])
    · cases h
      exact (isFit_float fun _ hvalue => Binary64.isOversized_of_ofDecimal hvalue).isReadable
        (by simp [kind])

theorem isPassedOn_isReadable : IsPassedOn (some Number.maxDigits) IsReadable where
  text s := (isFit_text s).isReadable (by simp [kind])
  word := isReadable_word
  number := isReadable_of_readNumber
  list _ := (isFit_of_error rfl).isReadable (by simp [kind])
  object hmembers := isReadable_object fun m hm => (hmembers m hm).self

theorem isReadable_of_read {s : String} (h : read s = .ok v) : v.IsReadable :=
  holds_of_readWithin isPassedOn_isReadable h

end Json

namespace Bookmark

variable {b : Bookmark}

theorem hasOversized_of_visitCountOf {v count : Json} (hv : v.IsFit)
    (h : visitCountOf v = .ok count) : count.hasOversized = false := by
  cases v with
  | null =>
      cases h
      rfl
  | _ =>
      obtain ⟨n, hn, h⟩ := bind_eq_ok.mp h
      cases h
      exact hv n hn

theorem hasOversized_of_ofRecord {record : Json} (hrecord : record.IsReadable)
    (h : ofRecord record = .ok b) : b.visitCount.hasOversized = false := by
  obtain ⟨members, url, f, rfl, hof, hcount, -⟩ := exists_fields_of_ofRecord h
  obtain ⟨locator, set, color, -, -, -, -, rfl⟩ := of_cases hof
  refine hasOversized_of_visitCountOf ?_ hcount
  cases hlookup : members.lookup "visitCount" with
  | none => exact Json.isFit_of_error rfl
  | some v =>
      obtain ⟨front, back, hsplit, -⟩ := List.lookup_eq_some_iff.mp hlookup
      exact hrecord.members members rfl ("visitCount", v) (by simp [hsplit])

end Bookmark

/-- The visit count of a bookmark that is read from bytes does not have too many digits. -/
theorem RecordDirectory.hasOversized_of_valueOfBytes {content : ByteArray} {b : Bookmark}
    (hb : valueOfBytes content = .ok b) : b.visitCount.hasOversized = false := by
  rw [valueOfBytes] at hb
  split at hb
  · rw [valueOfText] at hb
    split at hb
    · next json hread => exact Bookmark.hasOversized_of_ofRecord (Json.isReadable_of_read hread) hb
    · cases hb
  · cases hb

end LinkShelf
