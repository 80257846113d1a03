import LinkShelf.Proofs.Bookmark.ReadCounts
import LinkShelf.Proofs.CommandLine.Import
import LinkShelf.Proofs.CommandLine.WellFormed

/-!
What the fields of a command line make of a bookmark. Main statement: the bookmark that is stored
for a page is the one that was there, or a blank one, with exactly the fields that are given,
modified now (`exists_bookmarkFor`); nothing is stored where the color is none
(`bookmarkFor_of_invalid`).
-/

namespace LinkShelf

/-! ## Complete bookmarks -/

namespace Bookmark

variable {b : Bookmark}

/-- Whether a bookmark is one of texts, at a URL in normal form, and has both its times. All its
times are named exactly by their record texts. -/
structure IsComplete (b : Bookmark) : Prop extends b.IsDated where
  url : Locator.of b.url = .ok b.locator
  title : ∃ s, b.title = .text s
  notes : ∃ s, b.notes = .text s
  image : b.image = .null ∨ ∃ s, b.image = .text s
  hasCreated : b.created.isSome = true
  hasModified : b.modified.isSome = true

theorem orElse_null_ne_empty (v : Json) : v.orElse .null ≠ .text "" := by
  rw [Json.orElse]
  split
  · rintro ⟨⟩
  · next hblank =>
      rintro rfl
      exact hblank rfl

/-- All that a complete bookmark needs besides for being written and read again comes from its
record. -/
theorem IsComplete.isExportable {content : ByteArray} (hb : b.IsComplete)
    (hread : RecordDirectory.valueOfBytes content = .ok b) : b.IsExportable := by
  obtain ⟨record, hrecord⟩ := RecordDirectory.exists_record_of_valueOfBytes hread
  have hfields := hasNormalFields_of_ofRecord hrecord
  obtain ⟨members, url, f, -, hof, -, -, -, hv⟩ := exists_fields_of_ofRecord hrecord
  have himage : b.image ≠ .text "" := by
    obtain ⟨locator, set, color, -, -, -, -, rfl⟩ := of_cases hof
    rw [hv]
    exact orElse_null_ne_empty _
  refine ⟨⟨hb.url, hb.title, hb.notes, ?_, ?_, ?_, hb.created, hb.modified, hb.lastVisited,
    hfields.visitCount⟩, hb.hasCreated, hb.hasModified,
    RecordDirectory.hasOversized_of_valueOfBytes hread⟩
  · refine hb.image.imp_right ?_
    rintro ⟨s, hs⟩
    refine ⟨s, ?_, hs⟩
    rintro rfl
    exact himage hs
  · obtain ⟨set, hset, hnormal⟩ := hfields.tags
    exact ⟨set, hset, fun tag htag => (hnormal tag htag).2⟩
  · refine hfields.color.imp_right ?_
    rintro ⟨s, hs, hnormal⟩
    exact ⟨s, hs, Color.read_of_isNormal hnormal⟩

/-- A bookmark with nothing but the times of a page that is new. -/
def blank (l : Locator) (now : Instant) : Bookmark where
  locator := l
  title := .text ""
  notes := .text ""
  image := .null
  tags := .names .empty
  color := .null
  created := some now
  modified := some now
  lastVisited := none
  visitCount := .null

theorem blank_isExportable {l : Locator} {now : Instant} (hl : Locator.of l.url = .ok l)
    (hnow : now.IsRecordable) : (blank l now).IsExportable :=
  have hown : ∀ t, some now = some t → t.IsRecordable := fun _ ht => Option.some.inj ht ▸ hnow
  ⟨⟨hl, ⟨_, rfl⟩, ⟨_, rfl⟩, .inl rfl, ⟨.empty, rfl, nofun⟩, .inl rfl, hown, hown, nofun, .inl rfl⟩,
    rfl, rfl, rfl⟩

end Bookmark

/-! ## Given fields -/

/-- The color that a text stands for; a blank text stands for none. -/
def Color.Reading.value : Color.Reading → Json
  | .color normal => .text normal
  | _ => .null

namespace GivenFields

variable {f : GivenFields} {b : Bookmark} {now : Instant}

/-- Whether the color that is given, if one is, is a color or blank. -/
def IsValid (f : GivenFields) : Prop := ∀ c, f.color = some c → Color.read c ≠ .invalid

/-- A bookmark with the given fields in place of its own, and modified now. -/
def appliedTo (f : GivenFields) (b : Bookmark) (now : Instant) : Bookmark :=
  { b with
    title := (f.title.map Json.text).getD b.title
    notes := (f.notes.map Json.text).getD b.notes
    tags := if f.tags.isEmpty then b.tags else .names (.ofList (Command.tagNames f.tags))
    color := (f.color.map fun c => (Color.read c).value).getD b.color
    modified := some now }

theorem ofJson_text {c : String} (hc : Color.read c ≠ .invalid) :
    Color.ofJson (.text c) = .ok (Color.read c).value := by
  rw [Color.ofJson]
  split
  · next hread =>
      rw [hread, Color.Reading.value]
      intro normal hnormal
      cases hnormal
  · next normal hread => rw [hread, Color.Reading.value]
  · next hread => exact absurd hread hc

theorem ofJson_text_of_invalid {c : String} (hc : Color.read c = .invalid) :
    ∃ fault, Color.ofJson (.text c) = .error fault ∧ fault.isBadValue = true :=
  ⟨_, by rw [Color.ofJson, hc], rfl⟩

theorem normalize?_of_mem_tags {words : List String} {tag : String}
    (htag : tag ∈ (TagSet.ofList (Command.tagNames words)).names) :
    Tag.normalize? tag = some tag :=
  (Command.normalize?_of_mem_tagNames (TagSet.mem_ofList.mp htag)).2

/-- Whether a bookmark has nothing in the fields that are given without text. -/
structure Clears (f : GivenFields) (b : Bookmark) : Prop where
  title : f.title = some "" → b.title = .text ""
  notes : f.notes = some "" → b.notes = .text ""
  tags : f.tags ≠ [] →
    (∀ word ∈ f.tags, ∀ c ∈ word.toList, Text.isBlank c = true ∨ c = ',') → b.tags = .names .empty
  color : ∀ c, f.color = some c → (∀ d ∈ c.toList, Text.isBlank d = true) → b.color = .null

theorem tagNames_eq_nil {words : List String}
    (hwords : ∀ word ∈ words, ∀ c ∈ word.toList, Text.isBlank c = true ∨ c = ',') :
    Command.tagNames words = [] := by
  rw [List.eq_nil_iff_forall_not_mem]
  intro tag htag
  obtain ⟨word, hword, htag⟩ := List.mem_flatMap.mp htag
  obtain ⟨piece, hpiece, htag⟩ := List.mem_filterMap.mp htag
  obtain ⟨hnormal, hne⟩ := Tag.normalize?_eq_some_iff.mp htag
  have hblank : ∀ c ∈ piece, Text.isBlank c = true := by
    intro c hc
    have hcomma := Text.not_mem_pieces hpiece c hc
    refine (hwords word hword c (Text.mem_of_mem_pieces hpiece hc)).resolve_right ?_
    simpa using hcomma
  rw [String.toList_ofList, (Text.strip_eq_nil_iff piece).mpr hblank] at hnormal
  exact hne (String.toList_eq_nil_iff.mp hnormal)

theorem appliedTo_clears (f : GivenFields) (b : Bookmark) (now : Instant) :
    f.Clears (f.appliedTo b now) where
  title hgiven := by rw [appliedTo, hgiven]; rfl
  notes hgiven := by rw [appliedTo, hgiven]; rfl
  tags hgiven hwords := by
    simp only [appliedTo, List.isEmpty_iff, hgiven, if_false, tagNames_eq_nil hwords]
    rfl
  color c hgiven hblank := by
    have hread : Color.read c = .absent := by
      rw [Color.read, (Text.strip_eq_nil_iff _).mpr hblank]
    simp only [appliedTo, hgiven, Option.map_some, Option.getD_some, hread]
    rfl

theorem appliedTo_isExportable (hf : f.IsValid) (hb : b.IsExportable) (hnow : now.IsRecordable) :
    (f.appliedTo b now).IsExportable := by
  refine ⟨⟨hb.url, ?_, ?_, hb.image, ?_, ?_, hb.created, fun _ ht => Option.some.inj ht ▸ hnow,
    hb.lastVisited, hb.visitCount⟩, hb.hasCreated, rfl, hb.isReadable⟩
  · rw [appliedTo]
    cases f.title with
    | none => exact hb.title
    | some s => exact ⟨s, rfl⟩
  · rw [appliedTo]
    cases f.notes with
    | none => exact hb.notes
    | some s => exact ⟨s, rfl⟩
  · rw [appliedTo]
    by_cases htags : f.tags.isEmpty
    · simpa only [htags, if_true] using hb.tags
    · simp only [htags]
      exact ⟨_, rfl, fun tag htag => normalize?_of_mem_tags htag⟩
  · rw [appliedTo]
    cases hcolor : f.color with
    | none => exact hb.color
    | some c =>
        exact (Color.isNormal_of_ofJson (ofJson_text (hf c hcolor))).imp_right
          fun ⟨s, hs, hnormal⟩ => ⟨s, hs, Color.read_of_isNormal hnormal⟩

end GivenFields

namespace Command

open GivenFields

variable {f : GivenFields} {b : Bookmark} {url : String} {l : Locator} {now : Instant}

theorem changesFor_eq (hf : f.IsValid) (b : Bookmark) (now : Instant) :
    changesFor f b = .ok [.title (f.appliedTo b now).title, .tags (f.appliedTo b now).tags,
      .color (f.appliedTo b now).color, .notes (f.appliedTo b now).notes, .modified none] := by
  obtain ⟨title, words, color, notes⟩ := f
  cases color with
  | none => cases title <;> cases notes <;> rfl
  | some c =>
      simp only [changesFor, ofJson_text (hf c rfl), ok_bind]
      cases title <;> cases notes <;> rfl

theorem ofJson_tagNames (words : List String) :
    Tags.ofJson (.list ((TagSet.ofList (tagNames words)).names.map .text)) =
      .ok (.ofList (tagNames words)) :=
  Tags.ofJson_names fun _ htag => normalize?_of_mem_tags htag

/-- The bookmark that is there gets the given fields, and loses the time of its last change, which
the store fills in. -/
theorem bookmarkFor_some_of_isValid (url : String) (hf : f.IsValid) (hb : b.IsExportable)
    (hnow : now.IsRecordable) :
    let untimed : Bookmark := { f.appliedTo b now with modified := none }
    bookmarkFor url f (some b) = .ok untimed ∧ untimed.IsCanonical := by
  intro untimed
  have hafter := (appliedTo_isExportable hf hb hnow).toIsCanonical
  have huntimed : untimed.IsCanonical := hafter.withTimes hafter.created nofun
  refine ⟨?_, huntimed⟩
  simp only [bookmarkFor, changesFor_eq hf b now, ok_bind]
  exact huntimed.checked

/-- A new bookmark has the given fields and no times. -/
theorem bookmarkFor_none_of_isValid (hf : f.IsValid) (hl : Locator.of url = .ok l)
    (hsettled : Locator.of l.url = .ok l) (hnow : now.IsRecordable) :
    let untimed : Bookmark :=
      { f.appliedTo (.blank l now) now with created := none, modified := none }
    bookmarkFor url f none = .ok untimed ∧ untimed.IsCanonical := by
  intro untimed
  have hafter := (appliedTo_isExportable hf (Bookmark.blank_isExportable hsettled hnow)
    hnow).toIsCanonical
  have huntimed : untimed.IsCanonical := hafter.withTimes nofun nofun
  have hcolor : Color.ofJson (Json.ofText? f.color) = .ok untimed.color := by
    simp only [untimed, appliedTo]
    cases hgiven : f.color with
    | none => rfl
    | some c => exact ofJson_text (hf c hgiven)
  refine ⟨?_, huntimed⟩
  rw [← huntimed.checked]
  simp only [bookmarkFor, Bookmark.of, Locator.ofJson_text, hl, Except.mapError, ofJson_tagNames,
    hcolor, ok_bind]
  obtain ⟨title, words, color, notes⟩ := f
  cases title <;> cases notes <;> cases words <;> rfl

/-- The bookmark that the store makes of what it is given for a page. -/
theorem exists_bookmarkFor (hf : f.IsValid) (hl : Locator.of url = .ok l)
    (hsettled : Locator.of l.url = .ok l) (hnow : now.IsRecordable) {existing : Option Bookmark}
    (hexisting : ∀ b, existing = some b → b.locator = l ∧ b.IsExportable) :
    ∃ b, bookmarkFor url f existing = .ok b ∧ b.locator = l ∧
      Store.changed b (Store.missingTimes b existing now) =
        .ok (f.appliedTo (existing.getD (.blank l now)) now) := by
  have hcreated : ∀ other t, existing = some other → other.created = some t → t.IsRecordable :=
    fun other t hother ht => (hexisting other hother).2.created t ht
  cases existing with
  | none =>
      obtain ⟨hmade, huntimed⟩ := bookmarkFor_none_of_isValid hf hl hsettled hnow
      refine ⟨_, hmade, rfl, ?_⟩
      obtain ⟨stored, hstored, -⟩ := Store.changed_missingTimes huntimed hcreated hnow
      rw [hstored, Store.eq_of_changed hstored]
      rfl
  | some b =>
      obtain ⟨hlocator, hb⟩ := hexisting b rfl
      obtain ⟨hmade, huntimed⟩ := bookmarkFor_some_of_isValid url hf hb hnow
      refine ⟨_, hmade, hlocator, ?_⟩
      obtain ⟨stored, hstored, -⟩ := Store.changed_missingTimes huntimed hcreated hnow
      rw [hstored, Store.eq_of_changed hstored]
      obtain ⟨made, hmade⟩ := Option.isSome_iff_exists.mp hb.hasCreated
      simp [appliedTo, hmade]

/-- A color that is none is refused, whether there is a bookmark or not. -/
theorem bookmarkFor_of_invalid (hl : Locator.of url = .ok l) (hf : ¬ f.IsValid)
    (existing : Option Bookmark) :
    ∃ fault, bookmarkFor url f existing = .error fault ∧ fault.isBadValue = true := by
  obtain ⟨c, hgiven, hc⟩ : ∃ c, f.color = some c ∧ Color.read c = .invalid := by
    simpa [IsValid] using hf
  obtain ⟨fault, hfault, hkind⟩ := ofJson_text_of_invalid hc
  refine ⟨fault, ?_, hkind⟩
  cases existing with
  | some b => simp only [bookmarkFor, changesFor, hgiven, hfault, error_bind]
  | none =>
      simp only [bookmarkFor, Bookmark.of, Locator.ofJson_text, hl, Except.mapError,
        ofJson_tagNames, hgiven, Json.ofText?, hfault, ok_bind, error_bind]

end Command

end LinkShelf
