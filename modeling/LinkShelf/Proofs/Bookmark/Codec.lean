import LinkShelf.Proofs.Calendar.RecordText
import LinkShelf.Proofs.Json.RoundTrip
import LinkShelf.Proofs.Outcome
import LinkShelf.Proofs.Text.Encoding
import LinkShelf.Store

/-!
Bookmarks as records. Main statement: a canonical bookmark is what its record holds
(`ofRecord_toRecord`).
-/

namespace LinkShelf

/-- Whether a moment is one that its record text names exactly: the start of a second in a year of
four digits. -/
structure Instant.IsRecordable (t : Instant) : Prop where
  year : 1000 ≤ t.yearMonthDay.1
  whole : t.micros % microsPerSecond = 0

/-- Whether a bookmark has all its fields in normal form. -/
structure Bookmark.IsCanonical (b : Bookmark) : Prop where
  url : Locator.of b.url = .ok b.locator
  title : ∃ s, b.title = .text s
  notes : ∃ s, b.notes = .text s
  image : b.image = .null ∨ ∃ s, s ≠ "" ∧ b.image = .text s
  tags : ∃ set, b.tags = .names set ∧ ∀ tag ∈ set.names, Tag.normalize? tag = some tag
  color : b.color = .null ∨ ∃ s, b.color = .text s ∧ Color.read s = .color s
  created : ∀ t, b.created = some t → t.IsRecordable
  modified : ∀ t, b.modified = some t → t.IsRecordable
  lastVisited : ∀ t, b.lastVisited = some t → t.IsRecordable
  visitCount : b.visitCount = .null ∨ ∃ n : Nat, b.visitCount = .int n

namespace TagSet

theorem insertSorted_of_forall_lt {name : String} {names : List String}
    (hlast : ∀ other ∈ names, other < name) : insertSorted name names = names ++ [name] := by
  induction names with
  | nil => rfl
  | cons first rest ih =>
      have hfirst : first < name := hlast first (by simp)
      rw [insertSorted, if_neg (String.lt_asymm hfirst), if_pos hfirst,
        ih fun other hother => hlast other (by simp [hother])]
      rfl

theorem names_foldl_insert {names : List String} {tags : TagSet}
    (hsorted : (tags.names ++ names).Pairwise (· < ·)) :
    (names.foldl (fun tags name => tags.insert name) tags).names = tags.names ++ names := by
  induction names generalizing tags with
  | nil => simp
  | cons name rest ih =>
      have hinsert : (tags.insert name).names = tags.names ++ [name] :=
        insertSorted_of_forall_lt fun other hother =>
          (List.pairwise_append.mp hsorted).2.2 other hother name (by simp)
      rw [List.foldl_cons, ih (by rw [hinsert]; simpa using hsorted), hinsert, List.append_assoc]
      rfl

/-- A set is that of its own names. -/
theorem ofList_names (tags : TagSet) : ofList tags.names = tags := by
  have hnames : (ofList tags.names).names = tags.names :=
    names_foldl_insert (by simpa [empty] using tags.sorted)
  cases tags
  cases hofList : ofList _
  simp_all

end TagSet

namespace Tags

/-- The set of a list of normal names is that of the names themselves. -/
theorem ofJson_names {set : TagSet} (hset : ∀ tag ∈ set.names, Tag.normalize? tag = some tag) :
    ofJson (.list (set.names.map .text)) = .ok set := by
  by_cases hempty : set.names = []
  · have hset : set = .empty := by
      rw [← TagSet.ofList_names set, hempty]
      rfl
    subst hset
    rfl
  · have hblank : (Json.list (set.names.map .text)).isBlank = false := by
      simpa [Json.isBlank] using hempty
    have hitems : (Json.list (set.names.map .text)).items = .ok (set.names.map .text) := rfl
    rw [ofJson, hblank]
    simp only [Bool.false_eq_true, if_false, hitems, ok_bind]
    rw [mapM_map_eq_ok fun tag htag => by simp [hset tag htag]; rfl]
    · simp only [ok_bind, TagSet.ofList_names]
      rfl
    · exact nofun

end Tags

theorem Locator.ofJson_text (url : String) :
    Locator.ofJson (.text url) = (Locator.of url).mapError .url := by
  by_cases hurl : url = ""
  · subst hurl
    rfl
  · simp only [Locator.ofJson, Json.isBlank, String.isEmpty_iff, hurl, if_false]
    cases Locator.of url <;> rfl

/-- A moment is read from its record text. -/
theorem Timestamp.ofJson_recordText {t : Instant} (ht : t.IsRecordable) :
    ofJson (.text t.recordText) = .ok (some t) := by
  have hread : readText t.recordText = .ok t := readText_recordText t ht.year ht.whole
  have htext : t.recordText ≠ "" := by
    simp [Instant.recordText]
  unfold ofJson
  split
  · contradiction
  · rename_i heq
    exact absurd (Json.text.inj heq) htext
  · simp only [read?, hread]

/-! ## Members -/

namespace Json

theorem areMembersExact_iff {members : List (String × Json)} :
    areMembersExact members = true ↔
      (members.map (·.1)).Nodup ∧ ∀ m ∈ members, m.2.isExact = true := by
  induction members with
  | nil => simp [areMembersExact]
  | cons m rest ih =>
      obtain ⟨name, v⟩ := m
      simp only [areMembersExact, Bool.and_eq_true, ih, Bool.not_eq_true', List.any_eq_false,
        List.map_cons, List.nodup_cons, List.mem_map, List.forall_mem_cons]
      grind

theorem areExact_map_text (names : List String) : areExact (names.map .text) = true := by
  induction names with
  | nil => rfl
  | cons name rest ih => simpa [areExact, isExact] using ih

end Json

namespace Bookmark

section Members

variable {name other : String} {v : Json} {t : Option Instant}

theorem lookup_memberUnlessBlank_ne (hne : (other == name) = false) :
    (memberUnlessBlank name v).lookup other = none := by
  unfold memberUnlessBlank
  split <;> simp [List.lookup_cons, hne]

theorem lookup_memberUnlessBlank_self :
    (memberUnlessBlank name v).lookup name = if v.isBlank then none else some v := by
  unfold memberUnlessBlank
  split <;> simp

theorem lookup_memberAt_ne (hne : (other == name) = false) :
    (memberAt name t).lookup other = none := by
  cases t <;> simp [memberAt, List.lookup_cons, hne]

theorem lookup_memberAt_self :
    (memberAt name t).lookup name = t.map fun t => .text t.recordText := by
  cases t <;> simp [memberAt]

theorem lookup_ifNull_ne (hne : (other == name) = false) :
    (if v.isNull then [] else [(name, v)]).lookup other = none := by
  split <;> simp [List.lookup_cons, hne]

theorem lookup_ifNull_self :
    ((if v.isNull then [] else [(name, v)]).lookup name).getD .null = v := by
  cases v <;> simp [Json.isNull]

theorem memberUnlessBlank_sublist :
    ((memberUnlessBlank name v).map (·.1)).Sublist [name] := by
  unfold memberUnlessBlank
  split <;> simp

theorem memberAt_sublist : ((memberAt name t).map (·.1)).Sublist [name] := by
  cases t <;> simp [memberAt]

theorem ifNull_sublist :
    ((if v.isNull then [] else [(name, v)]).map (·.1)).Sublist [name] := by
  split <;> simp

theorem isExact_memberUnlessBlank (hv : v.isExact = true) :
    ∀ m ∈ memberUnlessBlank name v, m.2.isExact = true := by
  unfold memberUnlessBlank
  split <;> simp [hv]

theorem isExact_memberAt : ∀ m ∈ memberAt name t, m.2.isExact = true := by
  cases t <;> simp [memberAt, Json.isExact]

theorem isExact_ifNull (hv : v.isExact = true) :
    ∀ m ∈ (if v.isNull then [] else [(name, v)]), m.2.isExact = true := by
  split <;> simp [hv]

end Members

/-! ## Fields -/

theorem orElse_text (s : String) : (Json.text s).orElse (.text "") = .text s := by
  by_cases hs : s = ""
  · simp [Json.orElse, hs]
  · simp [Json.orElse, Json.isBlank]

theorem unlessBlank_orElse (v w : Json) :
    ((if v.isBlank then none else some v).getD .null).orElse w = v.orElse w := by
  by_cases hv : v.isBlank
  · have hnull : Json.null.isBlank = true := rfl
    simp [Json.orElse, hv, hnull]
  · simp [Json.orElse, hv]

theorem ofJson_recordedTime (hrecordable : ∀ moment, t = some moment → moment.IsRecordable) :
    Timestamp.ofJson ((t.map fun moment => .text moment.recordText).getD .null) = .ok t := by
  cases t with
  | none => rfl
  | some moment => exact Timestamp.ofJson_recordText (hrecordable moment rfl)

variable {b : Bookmark}

theorem IsCanonical.locator_ofJson (hb : b.IsCanonical) :
    Locator.ofJson (.text b.url) = .ok b.locator := by
  rw [Locator.ofJson_text, hb.url]
  rfl

theorem IsCanonical.color_ofJson (hb : b.IsCanonical) :
    Color.ofJson ((if b.color.isBlank then none else some b.color).getD .null) = .ok b.color := by
  rcases hb.color with hcolor | ⟨s, hcolor, hnormal⟩
  · rw [hcolor]
    rfl
  · have hs : s ≠ "" := by
      rintro rfl
      cases hnormal
    simp [hcolor, Json.isBlank, hs, Color.ofJson, hnormal]

theorem IsCanonical.visitCount_toInteger (hb : b.IsCanonical) :
    visitCountOf b.visitCount = .ok b.visitCount := by
  rcases hb.visitCount with hcount | ⟨n, hcount⟩ <;> rw [hcount] <;> rfl

theorem IsCanonical.checked (hb : b.IsCanonical) : b.checked = .ok b := by
  rcases hb.visitCount with hcount | ⟨n, hcount⟩
  · simp [Bookmark.checked, hcount, Json.isNull]
    rfl
  · have hless : Json.compareValues .less (.int n) (.int 0) = .ok false := by
      simp [Json.compareValues, Json.compareBy, Json.numeric?, Numeric.compare?,
        DyadicValue.compare, DyadicValue.ofInt, Comparison.holds, Int.compare_eq_lt]
    simp only [Bookmark.checked, hcount, Json.isNull, hless, ok_bind]
    rfl

theorem IsCanonical.image_orElse (hb : b.IsCanonical) : b.image.orElse .null = b.image := by
  rcases hb.image with himage | ⟨s, hs, himage⟩ <;> rw [himage]
  · rfl
  · simp [Json.orElse, Json.isBlank, hs]

/-- A bookmark is made of its own fields. -/
theorem IsCanonical.of_fields (hb : b.IsCanonical) {set : TagSet} (htags : b.tags = .names set) :
    of (.text b.url)
      { title := b.title
        notes := b.notes
        image := b.image
        tags := .list (set.names.map .text)
        color := (if b.color.isBlank then none else some b.color).getD .null
        created := b.created
        modified := b.modified
        lastVisited := b.lastVisited
        visitCount := b.visitCount } = .ok b := by
  have hset : Tags.ofJson (.list (set.names.map .text)) = .ok set := by
    obtain ⟨other, hother, hnormal⟩ := hb.tags
    obtain rfl : set = other := Tags.names.inj (htags.symm.trans hother)
    exact Tags.ofJson_names hnormal
  simp only [of, hb.locator_ofJson, hset, hb.color_ofJson, ok_bind, ← htags]
  exact hb.checked

theorem checked_eq_ok {stored : Bookmark} (h : b.checked = .ok stored) : stored = b := by
  rw [Bookmark.checked] at h
  split at h
  · exact (Except.ok.inj h).symm
  · obtain ⟨less, -, h⟩ := bind_eq_ok.mp h
    cases less with
    | true => cases h
    | false => exact (Except.ok.inj h).symm

/-- A bookmark that is read from a record has the locator of the URL in it. -/
theorem locator_of_ofRecord {stored : Bookmark} {record : Json} (hrecord : b.toRecord = .ok record)
    (hstored : ofRecord record = .ok stored) : Locator.of b.url = .ok stored.locator := by
  obtain ⟨members, rfl⟩ : ∃ members, record = .object (("url", .text b.url) :: members) := by
    rw [toRecord] at hrecord
    split at hrecord
    · exact ⟨_, (Except.ok.inj hrecord).symm⟩
    · obtain ⟨items, -, hrecord⟩ := bind_eq_ok.mp hrecord
      obtain ⟨tags, -, hrecord⟩ := bind_eq_ok.mp hrecord
      exact ⟨_, (Except.ok.inj hrecord).symm⟩
  simp only [ofRecord, List.lookup_cons_self] at hstored
  obtain ⟨created, -, hstored⟩ := bind_eq_ok.mp hstored
  obtain ⟨modified, -, hstored⟩ := bind_eq_ok.mp hstored
  obtain ⟨lastVisited, -, hstored⟩ := bind_eq_ok.mp hstored
  obtain ⟨visitCount, -, hstored⟩ := bind_eq_ok.mp hstored
  obtain ⟨locator, hlocator, hstored⟩ := bind_eq_ok.mp hstored
  obtain ⟨set, -, hstored⟩ := bind_eq_ok.mp hstored
  obtain ⟨color, -, hstored⟩ := bind_eq_ok.mp hstored
  obtain rfl : locator = stored.locator := by rw [checked_eq_ok hstored]
  rw [Locator.ofJson_text] at hlocator
  cases hl : Locator.of b.url with
  | error fault =>
      rw [hl] at hlocator
      cases hlocator
  | ok l =>
      rw [hl] at hlocator
      rw [← Except.ok.inj hlocator]

section

variable {set : TagSet} {record : Json}

/-- Whether the times of a bookmark are all named exactly by their record texts. -/
structure IsDated (b : Bookmark) : Prop where
  created : ∀ t, b.created = some t → t.IsRecordable
  modified : ∀ t, b.modified = some t → t.IsRecordable
  lastVisited : ∀ t, b.lastVisited = some t → t.IsRecordable

/-- What is made of the record of a bookmark: its times are those of the bookmark, and the other
fields are put in normal form. -/
theorem ofRecord_of_toRecord (htags : b.tags = .names set) (hdated : b.IsDated)
    (hrecord : b.toRecord = .ok record) :
    ofRecord record =
      visitCountOf b.visitCount >>= fun visitCount =>
        of (.text b.url)
          { title := b.title.orElse (.text "")
            notes := b.notes.orElse (.text "")
            image := b.image.orElse .null
            tags := .list (set.names.map .text)
            color := (if b.color.isBlank then none else some b.color).getD .null
            created := b.created
            modified := b.modified
            lastVisited := b.lastVisited
            visitCount := visitCount } := by
  rw [toRecord, htags] at hrecord
  rw [← Except.ok.inj hrecord]
  simp only [ofRecord, List.lookup_append]
  simp [lookup_memberUnlessBlank_ne, lookup_memberUnlessBlank_self, lookup_memberAt_ne,
    lookup_memberAt_self, lookup_ifNull_ne, lookup_ifNull_self, List.lookup_cons,
    ofJson_recordedTime hdated.created, ofJson_recordedTime hdated.modified,
    ofJson_recordedTime hdated.lastVisited, unlessBlank_orElse]

theorem isExact_of_toRecord (htags : b.tags = .names set) (htitle : b.title.isExact = true)
    (hnotes : b.notes.isExact = true) (himage : b.image.isExact = true)
    (hcolor : b.color.isExact = true) (hcount : b.visitCount.isExact = true)
    (hrecord : b.toRecord = .ok record) : record.isExact = true := by
  rw [toRecord, htags] at hrecord
  rw [← Except.ok.inj hrecord, Json.isExact, Json.areMembersExact_iff]
  constructor
  · have hnames : List.Nodup ["url", "title", "tags", "notes", "imageUrl", "color", "created",
        "modified", "lastVisited", "visitCount"] := by decide
    refine hnames.sublist ?_
    simp only [List.map_append]
    have hnotes : ((memberUnlessBlank "notes" b.notes).map (·.1)).Sublist ["notes"] :=
      memberUnlessBlank_sublist
    have hvalues := (List.Sublist.refl ["url", "title", "tags"]).append hnotes
    exact (((((hvalues.append memberUnlessBlank_sublist).append memberUnlessBlank_sublist).append
      memberAt_sublist).append memberAt_sublist).append memberAt_sublist).append ifNull_sublist
  · have hmain : ∀ m ∈ [("url", .text b.url), ("title", b.title),
        ("tags", .list (set.names.map .text))], m.2.isExact = true := by
      simp [htitle, Json.isExact, Json.areExact_map_text]
    simp only [List.forall_mem_append]
    exact ⟨⟨⟨⟨⟨⟨⟨hmain, isExact_memberUnlessBlank hnotes⟩, isExact_memberUnlessBlank himage⟩,
      isExact_memberUnlessBlank hcolor⟩, isExact_memberAt⟩, isExact_memberAt⟩, isExact_memberAt⟩,
      isExact_ifNull hcount⟩

end

theorem IsCanonical.isDated (hb : b.IsCanonical) : b.IsDated :=
  ⟨hb.created, hb.modified, hb.lastVisited⟩

/-- The record of a canonical bookmark holds the bookmark. -/
theorem ofRecord_toRecord (hb : b.IsCanonical) :
    ∃ record, b.toRecord = .ok record ∧ record.isExact = true ∧ ofRecord record = .ok b := by
  obtain ⟨title, htitle⟩ := hb.title
  obtain ⟨notes, hnotes⟩ := hb.notes
  obtain ⟨set, htags, -⟩ := hb.tags
  obtain ⟨record, hrecord⟩ : ∃ record, b.toRecord = .ok record := ⟨_, by rw [toRecord, htags]; rfl⟩
  refine ⟨record, hrecord, isExact_of_toRecord htags ?_ ?_ ?_ ?_ ?_ hrecord, ?_⟩
  · rw [htitle]
    rfl
  · rw [hnotes]
    rfl
  · obtain himage | ⟨s, -, himage⟩ := hb.image <;> rw [himage] <;> rfl
  · obtain hcolor | ⟨s, hcolor, -⟩ := hb.color <;> rw [hcolor] <;> rfl
  · obtain hcount | ⟨n, hcount⟩ := hb.visitCount <;> rw [hcount] <;> rfl
  · rw [ofRecord_of_toRecord htags hb.isDated hrecord, hb.visitCount_toInteger, ok_bind,
      hb.image_orElse, htitle, orElse_text, hnotes, orElse_text, ← htitle, ← hnotes]
    exact hb.of_fields htags

end Bookmark

namespace RecordDirectory

/-- What is read from the bytes of a record file is what is made of the record. -/
theorem valueOfBytes_of_toRecord {b : Bookmark} {record : Json} {text : String}
    (hrecord : b.toRecord = .ok record) (hexact : record.isExact = true)
    (htext : recordText b = .ok text) :
    valueOfBytes text.toUTF8 = Bookmark.ofRecord record := by
  have hencode : Record.encode b = .ok record := hrecord
  rw [recordText, hencode, ok_bind] at htext
  cases hsize : record.hasOversized with
  | true =>
      rw [hsize] at htext
      cases htext
  | false =>
      rw [hsize] at htext
      obtain rfl : record.write .indented ++ "\n" = text := Except.ok.inj htext
      have hread : Json.read (record.write .indented ++ "\n") = .ok record :=
        Json.read_write (by decide) hexact hsize
      have hreturn : '\r' ∉ (record.write .indented ++ "\n").toList := by
        simp [Json.write, Json.writeAt_no_return .indented 0 record hexact]
      rw [valueOfBytes, Text.decodeLines_toUTF8 hreturn]
      simp only [valueOfText, hread]
      rfl

/-- A canonical bookmark is read from the bytes of its record file. -/
theorem valueOfBytes_recordText {b : Bookmark} (hb : b.IsCanonical) {text : String}
    (htext : recordText b = .ok text) : valueOfBytes text.toUTF8 = .ok b := by
  obtain ⟨record, hrecord, hexact, hback⟩ := Bookmark.ofRecord_toRecord hb
  rw [valueOfBytes_of_toRecord hrecord hexact htext, hback]

end RecordDirectory

end LinkShelf
