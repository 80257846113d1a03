import LinkShelf.Proofs.Bookmark.ReadCounts

/-!
Bookmarks that are read from JSON texts. Main statement: whatever lists them, they can be written
(`exists_recordText_of_ofRecord`), as no value that is read holds an integer with more digits than
are accepted (`isListable_of_read`).
-/

namespace LinkShelf

namespace Json

variable {v : Json} {cs rest : List Char} {items : List Json} {members : List (String × Json)}

theorem anyOversized_eq_false :
    anyOversized items = false ↔ ∀ item ∈ items, item.hasOversized = false := by
  induction items with
  | nil => simp [anyOversized]
  | cons item items ih => simp [anyOversized, ih]

theorem anyMemberOversized_eq_false :
    anyMemberOversized members = false ↔ ∀ m ∈ members, m.2.hasOversized = false := by
  induction members with
  | nil => simp [anyMemberOversized]
  | cons m members ih => simp [anyMemberOversized, ih]

/-- Whether a value can be written, and what it lists can be read as records. -/
structure IsListable (v : Json) : Prop where
  readable : v.IsReadable
  size : v.hasOversized = false
  items : ∀ items, v = .list items → ∀ item ∈ items, item.IsReadable

theorem IsReadable.isListable (hv : v.IsReadable) (hsize : v.hasOversized = false)
    (hkind : v.kind ≠ .list) : v.IsListable := by
  refine ⟨hv, hsize, ?_⟩
  rintro items rfl
  exact absurd rfl hkind

theorem size_of_readNumber (h : readNumber (some Number.maxDigits) cs = .ok (v, rest)) :
    v.hasOversized = false ∧ v.kind ≠ .list := by
  have hself := (isReadable_of_readNumber h).self
  unfold readNumber at h
  dsimp only at h
  split at h
  · cases h
  · split at h
    · split at h
      · cases h
      · cases h
        exact ⟨hself _ rfl, by simp [kind]⟩
    · cases h
      exact ⟨rfl, by simp [kind]⟩

theorem isPassedOn_isListable : IsPassedOn (some Number.maxDigits) IsListable where
  text s := (isPassedOn_isReadable.text s).isListable rfl (by simp [kind])
  word w hw := by
    have hsimple : ∀ w ∈ words, w.2.hasOversized = false ∧ w.2.kind ≠ .list := by decide
    exact (isPassedOn_isReadable.word w hw).isListable (hsimple w hw).1 (hsimple w hw).2
  number h := (isReadable_of_readNumber h).isListable (size_of_readNumber h).1
    (size_of_readNumber h).2
  list hitems := by
    refine ⟨isPassedOn_isReadable.list fun item hitem => (hitems item hitem).readable, ?_, ?_⟩
    · exact anyOversized_eq_false.mpr fun item hitem => (hitems item hitem).size
    · rintro items ⟨⟩ item hitem
      exact (hitems item hitem).readable
  object hmembers := (isPassedOn_isReadable.object fun m hm => (hmembers m hm).readable).isListable
    (anyMemberOversized_eq_false.mpr fun m hm => (hmembers m hm).size) (by simp [kind])

/-- No integer of a value that is read has too many digits. -/
theorem isListable_of_read {s : String} (h : read s = .ok v) : v.IsListable :=
  holds_of_readWithin isPassedOn_isListable h

/-- Of what going through a value gives, only the items of a list can be records. -/
theorem IsListable.of_mem_items (hv : v.IsListable) (hitems : v.items = .ok items) {item : Json}
    (hitem : item ∈ items) : item.IsReadable ∧ item.hasOversized = false := by
  have htext : ∀ s, (text s).IsReadable ∧ (text s).hasOversized = false := fun s =>
    ⟨isPassedOn_isReadable.text s, rfl⟩
  cases v with
  | list given =>
      obtain rfl := Except.ok.inj hitems
      exact ⟨hv.items _ rfl item hitem, anyOversized_eq_false.mp hv.size item hitem⟩
  | text s =>
      obtain rfl := Except.ok.inj hitems
      obtain ⟨c, -, rfl⟩ := List.mem_map.mp hitem
      exact htext _
  | object members =>
      obtain rfl := Except.ok.inj hitems
      obtain ⟨m, -, rfl⟩ := List.mem_map.mp hitem
      exact htext _
  | _ => cases hitems

theorem hasOversized_orElse {other : Json} (hv : v.hasOversized = false)
    (hother : other.hasOversized = false) : (v.orElse other).hasOversized = false := by
  rw [orElse]
  split
  · exact hother
  · exact hv

theorem hasOversized_lookup (hmembers : anyMemberOversized members = false) (name : String) :
    ((members.lookup name).getD .null).hasOversized = false := by
  cases hlookup : members.lookup name with
  | none => rfl
  | some v =>
      obtain ⟨front, back, hsplit, -⟩ := List.lookup_eq_some_iff.mp hlookup
      exact anyMemberOversized_eq_false.mp hmembers (name, v) (by simp [hsplit])

end Json

namespace Bookmark

variable {b : Bookmark} {record : Json}

/-- A bookmark that is read from a record can be written. -/
theorem exists_recordText_of_ofRecord (hread : record.IsReadable)
    (hsize : record.hasOversized = false) (h : ofRecord record = .ok b) :
    ∃ text, RecordDirectory.recordText b = .ok text := by
  have hdecoded := isDecoded_of_ofRecord h
  have hcount := hasOversized_of_ofRecord hread h
  obtain ⟨members, url, f, rfl, hof, -, htitle, hnotes, himage⟩ := exists_fields_of_ofRecord h
  obtain ⟨locator, set, color, -, -, hcolor, -, hb⟩ := of_cases hof
  have hmembers := Json.hasOversized_lookup hsize
  have htitleSize : b.title.hasOversized = false := by
    rw [hb, htitle]
    exact Json.hasOversized_orElse (hmembers "title") rfl
  have hnotesSize : b.notes.hasOversized = false := by
    rw [hb, hnotes]
    exact Json.hasOversized_orElse (hmembers "notes") rfl
  have himageSize : b.image.hasOversized = false := by
    rw [hb, himage]
    exact Json.hasOversized_orElse (hmembers "imageUrl") rfl
  have hcolorSize : b.color.hasOversized = false := by
    rw [hb]
    obtain rfl | ⟨s, rfl⟩ := color_cases hcolor <;> rfl
  obtain ⟨written, hwritten, hsame⟩ :=
    hdecoded.exists_record htitleSize hnotesSize himageSize hcolorSize
  have hencoded : Record.encode b = .ok written := hwritten
  rw [RecordDirectory.recordText, hencoded, ok_bind, hsame, hcount]
  exact ⟨_, rfl⟩

end Bookmark

end LinkShelf
