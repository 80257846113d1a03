import LinkShelf.Proofs.Bookmark.Codec

/-!
What bookmarks look like that were made from fields (`of_cases`) or read from records
(`ofRecord_cases`), whatever the fields and records hold.
-/

namespace LinkShelf

namespace Bookmark

variable {b : Bookmark}

theorem of_cases {url : Json} {f : Fields} (h : of url f = .ok b) :
    ∃ locator set color, Locator.ofJson url = .ok locator ∧ Tags.ofJson f.tags = .ok set ∧
      Color.ofJson f.color = .ok color ∧ b.checked = .ok b ∧
      b = ⟨locator, f.title, f.notes, f.image, .names set, color, f.created, f.modified,
        f.lastVisited, f.visitCount⟩ := by
  obtain ⟨locator, hlocator, h⟩ := bind_eq_ok.mp h
  obtain ⟨set, hset, h⟩ := bind_eq_ok.mp h
  obtain ⟨color, hcolor, h⟩ := bind_eq_ok.mp h
  have hb := checked_eq_ok h
  rw [← hb] at h
  exact ⟨locator, set, color, hlocator, hset, hcolor, h, hb⟩

theorem visitCountOf_cases {v count : Json} (h : visitCountOf v = .ok count) :
    count = .null ∨ ∃ n, count = .int n := by
  cases v with
  | null =>
      left
      cases h
      rfl
  | _ =>
      right
      obtain ⟨n, -, h⟩ := bind_eq_ok.mp h
      cases h
      exact ⟨n, rfl⟩

/-- A record is an object, from whose members the fields are read. -/
theorem exists_fields_of_ofRecord {record : Json} (h : ofRecord record = .ok b) :
    ∃ members url f, record = .object members ∧ of url f = .ok b ∧
      visitCountOf ((members.lookup "visitCount").getD .null) = .ok f.visitCount ∧
      f.title = ((members.lookup "title").getD .null).orElse (.text "") ∧
      f.notes = ((members.lookup "notes").getD .null).orElse (.text "") ∧
      f.image = ((members.lookup "imageUrl").getD .null).orElse .null := by
  cases record with
  | object members =>
      rw [ofRecord] at h
      cases hurl : members.lookup "url" with
      | none =>
          rw [hurl] at h
          cases h
      | some url =>
          rw [hurl] at h
          obtain ⟨created, -, h⟩ := bind_eq_ok.mp h
          obtain ⟨modified, -, h⟩ := bind_eq_ok.mp h
          obtain ⟨lastVisited, -, h⟩ := bind_eq_ok.mp h
          obtain ⟨visitCount, hcount, h⟩ := bind_eq_ok.mp h
          exact ⟨members, url, _, rfl, h, hcount, rfl, rfl, rfl⟩
  | _ => cases h

theorem ofRecord_cases {record : Json} (h : ofRecord record = .ok b) :
    ∃ url f, of url f = .ok b ∧ (f.visitCount = .null ∨ ∃ n, f.visitCount = .int n) := by
  obtain ⟨members, url, f, -, hof, hcount, -⟩ := exists_fields_of_ofRecord h
  exact ⟨url, f, hof, visitCountOf_cases hcount⟩

theorem compareValues_less_zero (n : Int) :
    Json.compareValues .less (.int n) (.int 0) = .ok (decide (n < 0)) := by
  have hcompare : (compare n 0 == Ordering.lt) = decide (n < 0) := by
    rw [Bool.eq_iff_iff]
    simp [Int.compare_eq_lt]
  simpa [Json.compareValues, Json.compareBy, Json.numeric?, Numeric.compare?,
    DyadicValue.compare, DyadicValue.ofInt, Comparison.holds] using hcompare

theorem checked_iff :
    b.checked = .ok b ↔ b.visitCount.isNull = true ∨
      b.visitCount.compareValues .less (.int 0) = .ok false := by
  rw [checked]
  cases hnull : b.visitCount.isNull with
  | true => simp [pure, Except.pure]
  | false =>
      simp only [Bool.false_eq_true, if_false, false_or, bind_eq_ok]
      constructor
      · rintro ⟨less, hless, hok⟩
        cases less with
        | true => cases hok
        | false => exact hless
      · exact fun hless => ⟨false, hless, rfl⟩

theorem checked_iff_nonneg {n : Int} (hcount : b.visitCount = .int n) :
    b.checked = .ok b ↔ 0 ≤ n := by
  rw [checked_iff, hcount, compareValues_less_zero, Except.ok.injEq, decide_eq_false_iff_not,
    Int.not_lt]
  exact or_iff_right Bool.false_ne_true

/-- Whether a bookmark is as records give them: its tags are names, and its visit count, if it has
one, is a natural number. -/
structure IsDecoded (b : Bookmark) : Prop where
  tags : ∃ set, b.tags = .names set
  visitCount : b.visitCount = .null ∨ ∃ n : Nat, b.visitCount = .int n

theorem isDecoded_of_ofRecord {record : Json} (h : ofRecord record = .ok b) : b.IsDecoded := by
  obtain ⟨url, f, hof, hcount⟩ := ofRecord_cases h
  obtain ⟨locator, set, color, -, -, -, hchecked, hb⟩ := of_cases hof
  refine ⟨⟨set, by rw [hb]⟩, ?_⟩
  have hfield : b.visitCount = f.visitCount := by rw [hb]
  obtain hnull | ⟨n, hn⟩ := hcount
  · left
    rw [hfield, hnull]
  · right
    have hint : b.visitCount = .int n := by rw [hfield, hn]
    refine ⟨n.toNat, ?_⟩
    rw [hint, Int.toNat_of_nonneg ((checked_iff_nonneg hint).mp hchecked)]

theorem IsDecoded.checked (hb : b.IsDecoded) : b.checked = .ok b := by
  obtain hnull | ⟨n, hn⟩ := hb.visitCount
  · exact checked_iff.mpr (.inl (by rw [hnull]; rfl))
  · exact (checked_iff_nonneg hn).mpr (Int.natCast_nonneg n)

theorem color_cases {v color : Json} (h : Color.ofJson v = .ok color) :
    color = .null ∨ ∃ s, color = .text s := by
  cases v with
  | null =>
      cases h
      exact .inl rfl
  | text s =>
      rw [Color.ofJson] at h
      split at h
      · cases h
        exact .inl rfl
      · cases h
        exact .inr ⟨_, rfl⟩
      · cases h
  | _ => cases h

/-- Whether a bookmark was read from a record whose title, notes and image, if there is one, are
texts. -/
structure IsReadFromTexts (b : Bookmark) : Prop where
  read : ∃ record, ofRecord record = .ok b
  title : ∃ s, b.title = .text s
  notes : ∃ s, b.notes = .text s
  image : b.image = .null ∨ ∃ s, b.image = .text s

/-- Whether a bookmark is as records of texts give them, or has other times and another count. -/
structure IsTextual (b : Bookmark) : Prop extends b.IsDecoded where
  title : ∃ s, b.title = .text s
  notes : ∃ s, b.notes = .text s
  image : b.image = .null ∨ ∃ s, b.image = .text s
  color : b.color = .null ∨ ∃ s, b.color = .text s

theorem IsReadFromTexts.isTextual (hb : b.IsReadFromTexts) : b.IsTextual := by
  obtain ⟨⟨record, hrecord⟩, htitle, hnotes, himage⟩ := hb
  obtain ⟨url, f, hof, -⟩ := ofRecord_cases hrecord
  obtain ⟨locator, set, color, -, -, hcolor, -, hb⟩ := of_cases hof
  refine ⟨isDecoded_of_ofRecord hrecord, htitle, hnotes, himage, ?_⟩
  have hfield : b.color = color := by rw [hb]
  rw [hfield]
  exact color_cases hcolor

theorem IsCanonical.isReadFromTexts (hb : b.IsCanonical) : b.IsReadFromTexts where
  read := by
    obtain ⟨record, -, -, hrecord⟩ := ofRecord_toRecord hb
    exact ⟨record, hrecord⟩
  title := hb.title
  notes := hb.notes
  image := by
    obtain hnull | ⟨s, -, hs⟩ := hb.image
    · exact .inl hnull
    · exact .inr ⟨s, hs⟩

theorem anyMemberOversized_append (members more : List (String × Json)) :
    Json.anyMemberOversized (members ++ more) =
      (Json.anyMemberOversized members || Json.anyMemberOversized more) := by
  induction members with
  | nil => rfl
  | cons m rest ih =>
      simp only [List.cons_append, Json.anyMemberOversized, ih, Bool.or_assoc]

theorem anyMemberOversized_memberUnlessBlank {name : String} {v : Json}
    (hv : v.hasOversized = false) : Json.anyMemberOversized (memberUnlessBlank name v) = false := by
  rw [memberUnlessBlank]
  split
  · rfl
  · simp [Json.anyMemberOversized, hv]

theorem anyMemberOversized_memberAt (name : String) (t : Option Instant) :
    Json.anyMemberOversized (memberAt name t) = false := by
  cases t <;> rfl

theorem anyOversized_map_text (names : List String) :
    Json.anyOversized (names.map .text) = false := by
  induction names with
  | nil => rfl
  | cons name rest ih => simpa [Json.anyOversized, Json.hasOversized] using ih

/-- Only the visit count of a bookmark can have too many digits, if its other fields do not hold
integers that have. -/
theorem IsDecoded.exists_record (hb : b.IsDecoded) (htitle : b.title.hasOversized = false)
    (hnotes : b.notes.hasOversized = false) (himage : b.image.hasOversized = false)
    (hcolor : b.color.hasOversized = false) :
    ∃ record, b.toRecord = .ok record ∧ record.hasOversized = b.visitCount.hasOversized := by
  obtain ⟨set, hset⟩ := hb.tags
  refine ⟨_, by rw [toRecord, hset]; rfl, ?_⟩
  have hcount : Json.anyMemberOversized (if b.visitCount.isNull then [] else
      [("visitCount", b.visitCount)]) = b.visitCount.hasOversized := by
    obtain hnull | ⟨n, hn⟩ := hb.visitCount
    · rw [hnull]
      rfl
    · rw [hn]
      simp [Json.isNull, Json.anyMemberOversized]
  simp only [Json.hasOversized, anyMemberOversized_append, hcount,
    anyMemberOversized_memberUnlessBlank hnotes, anyMemberOversized_memberUnlessBlank himage,
    anyMemberOversized_memberUnlessBlank hcolor, anyMemberOversized_memberAt,
    Json.anyMemberOversized, htitle, anyOversized_map_text, Bool.or_false, Bool.false_or]

theorem IsTextual.exists_record (hb : b.IsTextual) :
    ∃ record, b.toRecord = .ok record ∧ record.hasOversized = b.visitCount.hasOversized := by
  have htext : ∀ v : Json, (v = .null ∨ ∃ s, v = .text s) → v.hasOversized = false := by
    rintro v (rfl | ⟨s, rfl⟩) <;> rfl
  exact hb.toIsDecoded.exists_record (htext _ (.inr hb.title)) (htext _ (.inr hb.notes))
    (htext _ hb.image) (htext _ hb.color)

/-- So only the count can keep it from being written. -/
theorem IsTextual.recordText_eq (hb : b.IsTextual) :
    (b.visitCount.hasOversized = true →
        RecordDirectory.recordText b = .error .oversizedInteger) ∧
      (b.visitCount.hasOversized = false → ∃ text, RecordDirectory.recordText b = .ok text) := by
  obtain ⟨record, hrecord, hsize⟩ := hb.exists_record
  have hencode : RecordDirectory.recordText b = (do
      if record.hasOversized then throw .oversizedInteger
      return record.write .indented ++ "\n") := by
    simp only [RecordDirectory.recordText, Record.encode, hrecord, ok_bind]
  rw [hencode, hsize]
  constructor
  · intro hcount
    rw [hcount]
    rfl
  · intro hcount
    rw [hcount]
    exact ⟨_, rfl⟩

theorem exists_orElse_text {v : Json} (hv : ∃ s, v = .text s) :
    ∃ s, v.orElse (.text "") = .text s := by
  obtain ⟨s, rfl⟩ := hv
  exact ⟨s, orElse_text s⟩

theorem orElse_null_cases {v : Json} (hv : v = .null ∨ ∃ s, v = .text s) :
    v.orElse .null = .null ∨ ∃ s, v.orElse .null = .text s := by
  rw [Json.orElse]
  split
  · exact .inl rfl
  · exact hv

/-- What is read from the record file of a bookmark of texts is one of texts again, with the times of
the bookmark. -/
theorem IsTextual.of_valueOfBytes {text : String} {stored : Bookmark} (hb : b.IsTextual)
    (hdated : b.IsDated) (htext : RecordDirectory.recordText b = .ok text)
    (hstored : RecordDirectory.valueOfBytes text.toUTF8 = .ok stored) :
    stored.IsTextual ∧ stored.created = b.created ∧ stored.modified = b.modified ∧
      stored.lastVisited = b.lastVisited := by
  have hexact : ∀ v : Json, (v = .null ∨ ∃ s, v = .text s) → v.isExact = true := by
    rintro v (rfl | ⟨s, rfl⟩) <;> rfl
  obtain ⟨set, hset⟩ := hb.tags
  obtain ⟨record, hrecord⟩ : ∃ record, b.toRecord = .ok record :=
    ⟨_, by rw [toRecord, hset]; rfl⟩
  have hcount : b.visitCount.isExact = true ∧ visitCountOf b.visitCount = .ok b.visitCount := by
    obtain hnull | ⟨n, hn⟩ := hb.visitCount
    · rw [hnull]
      exact ⟨rfl, rfl⟩
    · rw [hn]
      exact ⟨rfl, rfl⟩
  rw [RecordDirectory.valueOfBytes_of_toRecord hrecord (isExact_of_toRecord hset
    (hexact _ (.inr hb.title)) (hexact _ (.inr hb.notes)) (hexact _ hb.image) (hexact _ hb.color)
    hcount.1 hrecord) htext, ofRecord_of_toRecord hset hdated hrecord, hcount.2, ok_bind] at hstored
  obtain ⟨locator, names, color, -, -, hcolor, -, rfl⟩ := of_cases hstored
  exact ⟨⟨⟨⟨names, rfl⟩, hb.visitCount⟩, exists_orElse_text hb.title, exists_orElse_text hb.notes,
    orElse_null_cases hb.image, color_cases hcolor⟩, rfl, rfl, rfl⟩

end Bookmark

/-- What is read from bytes is read from a record. -/
theorem RecordDirectory.exists_record_of_valueOfBytes {content : ByteArray} {b : Bookmark}
    (hb : valueOfBytes content = .ok b) : ∃ record, Bookmark.ofRecord record = .ok b := by
  rw [valueOfBytes] at hb
  split at hb
  · rw [valueOfText] at hb
    split at hb
    · exact ⟨_, hb⟩
    · cases hb
  · cases hb

end LinkShelf
