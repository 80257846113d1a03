import LinkShelf.Bookmark.Record
import LinkShelf.Proofs.Outcome

/-!
Records that clash with what is done to their values. A record is read field by field, and a value
may fit its field, be refused, or clash: then it has no operation that the field needs, or is an
infinite count. Main statement: reading a record fails in a way that is not foreseen exactly if the
first field that its value does not fit has a clashing value (`stops_ofRecord_iff`).
-/

namespace LinkShelf

variable {α β : Type}

/-- Whether an outcome is a failure other than those that say that a record is unreadable. -/
def Stops (result : Except Failure α) : Prop :=
  ∃ fault, result = .error fault ∧ fault.isUnreadableRecord = false

@[simp] theorem not_stops_ok (a : α) : ¬ Stops (.ok a : Except Failure α) := by
  rintro ⟨fault, hfault, -⟩
  cases hfault

@[simp] theorem stops_error (fault : Failure) :
    Stops (.error fault : Except Failure α) ↔ fault.isUnreadableRecord = false := by
  constructor
  · rintro ⟨other, hother, hkind⟩
    rwa [Except.error.inj hother]
  · intro hkind
    exact ⟨fault, rfl, hkind⟩

@[simp] theorem stops_throw (fault : Failure) :
    Stops (throw fault : Except Failure α) ↔ fault.isUnreadableRecord = false :=
  stops_error fault

instance decidableStops : (result : Except Failure α) → Decidable (Stops result)
  | .ok a => isFalse (not_stops_ok a)
  | .error fault => decidable_of_iff (fault.isUnreadableRecord = false) (stops_error fault).symm

theorem stops_bind {x : Except Failure α} {f : α → Except Failure β} :
    Stops (x >>= f) ↔ Stops x ∨ ∃ a, x = .ok a ∧ Stops (f a) := by
  cases x with
  | ok a => simp
  | error fault => simp

theorem stops_mapM {f : α → Except Failure β} {items : List α} :
    Stops (items.mapM f) ↔ ∃ front item rest, items = front ++ item :: rest ∧
      (∀ a ∈ front, ∃ b, f a = .ok b) ∧ Stops (f item) := by
  induction items with
  | nil =>
      constructor
      · intro hstops
        exact absurd hstops (not_stops_ok _)
      · rintro ⟨front, item, rest, hitems, -⟩
        cases front <;> cases hitems
  | cons a items ih =>
      rw [List.mapM_cons, stops_bind]
      constructor
      · rintro (hfirst | ⟨b, hb, hstops⟩)
        · exact ⟨[], a, items, rfl, by simp, hfirst⟩
        · rw [stops_bind] at hstops
          rcases hstops with hstops | ⟨bs, -, hstops⟩
          · obtain ⟨front, item, rest, rfl, hfront, hitem⟩ := ih.mp hstops
            refine ⟨a :: front, item, rest, rfl, ?_, hitem⟩
            intro c hc
            rcases List.mem_cons.mp hc with rfl | hc
            · exact ⟨b, hb⟩
            · exact hfront c hc
          · exact absurd hstops (not_stops_ok _)
      · rintro ⟨front, item, rest, hitems, hfront, hitem⟩
        cases front with
        | nil =>
            obtain ⟨rfl, rfl⟩ := List.cons.inj hitems
            exact .inl hitem
        | cons first front =>
            obtain ⟨rfl, rfl⟩ := List.cons.inj hitems
            obtain ⟨b, hb⟩ := hfront a List.mem_cons_self
            refine .inr ⟨b, hb, stops_bind.mpr (.inl (ih.mpr ⟨front, item, rest, rfl, ?_, hitem⟩))⟩
            exact fun c hc => hfront c (List.mem_cons_of_mem a hc)

/-! ## Fields -/

namespace Json

/-- A list or an object where a moment is expected. -/
def ClashesAsTime (v : Json) : Prop := v.kind = .list ∨ v.kind = .object

/-- Infinity where a count is expected. -/
def ClashesAsCount (v : Json) : Prop := ∃ negative, v = .float (.infinite negative)

/-- A value that is neither blank nor a text where a URL is expected. -/
def ClashesAsUrl (v : Json) : Prop := v.isBlank = false ∧ v.kind ≠ .text

/-- A list whose first item that is no tag name is neither blank nor a text. -/
def ClashesAsTags (v : Json) : Prop :=
  ∃ front item rest, v = .list (front ++ item :: rest) ∧
    (∀ t ∈ front, ∃ s name, t = .text s ∧ Tag.normalize? s = some name) ∧
    item.isBlank = false ∧ item.kind ≠ .text

/-- A value that is neither missing nor a text where a color is expected. -/
def ClashesAsColor (v : Json) : Prop := v.kind ≠ .null ∧ v.kind ≠ .text

theorem not_stops_ofJson_time {v : Json} {r : Except TimestampFault Instant} (hnull : v ≠ .null)
    (hempty : v ≠ .text "") (hread : Timestamp.read? v = some r) :
    ¬ Stops (Timestamp.ofJson v) := by
  rw [Timestamp.ofJson, hread]
  · cases r with
    | ok t => exact not_stops_ok _
    | error fault => simp [Failure.isUnreadableRecord, Failure.isBadValue]
  · exact hnull
  · exact hempty

theorem stops_ofJson_time {v : Json} : Stops (Timestamp.ofJson v) ↔ v.ClashesAsTime := by
  cases v with
  | null => simp [Timestamp.ofJson, ClashesAsTime, kind]
  | bool b =>
      simpa [ClashesAsTime, kind] using not_stops_ofJson_time (v := .bool b) nofun nofun rfl
  | int n =>
      simpa [ClashesAsTime, kind] using not_stops_ofJson_time (v := .int n) nofun nofun rfl
  | float x =>
      simpa [ClashesAsTime, kind] using not_stops_ofJson_time (v := .float x) nofun nofun rfl
  | text s =>
      by_cases hs : s = ""
      · subst hs
        simp [Timestamp.ofJson, ClashesAsTime, kind]
      · have hempty : Json.text s ≠ .text "" := by simpa using hs
        simpa [ClashesAsTime, kind] using not_stops_ofJson_time (v := .text s) nofun hempty rfl
  | list items =>
      simp [Timestamp.ofJson, Timestamp.read?, ClashesAsTime, kind, Failure.isUnreadableRecord,
        Failure.isBadValue]
  | object members =>
      simp [Timestamp.ofJson, Timestamp.read?, ClashesAsTime, kind, Failure.isUnreadableRecord,
        Failure.isBadValue]

theorem stops_visitCountOf {v : Json} : Stops (Bookmark.visitCountOf v) ↔ v.ClashesAsCount := by
  have hcount : v ≠ .null → (Stops (Bookmark.visitCountOf v) ↔ Stops v.toInteger) := by
    intro hnull
    rw [Bookmark.visitCountOf, stops_bind]
    · constructor
      · rintro (hstops | ⟨n, -, hstops⟩)
        · exact hstops
        · exact absurd hstops (not_stops_ok _)
      · exact .inl
    · exact hnull
  cases v with
  | null => simp [Bookmark.visitCountOf, ClashesAsCount]
  | bool b => simp [hcount, toInteger, ClashesAsCount]
  | int n => simp [hcount, toInteger, ClashesAsCount]
  | float x =>
      rw [hcount nofun, toInteger]
      cases x with
      | finite negative mantissa exponent => simp [Binary64.value?, ClashesAsCount]
      | infinite negative =>
          simp [Binary64.value?, ClashesAsCount, Failure.isUnreadableRecord, Failure.isBadValue]
      | notANumber =>
          simp [Binary64.value?, ClashesAsCount, Failure.isUnreadableRecord, Failure.isBadValue]
  | text s =>
      rw [hcount nofun, toInteger]
      cases Number.readInteger s.toList with
      | ok n => simp [ClashesAsCount]
      | error fault => simp [ClashesAsCount, Failure.isUnreadableRecord, Failure.isBadValue]
  | list items =>
      simp [hcount, toInteger, ClashesAsCount, Failure.isUnreadableRecord, Failure.isBadValue]
  | object members =>
      simp [hcount, toInteger, ClashesAsCount, Failure.isUnreadableRecord, Failure.isBadValue]

theorem stops_ofJson_locator {v : Json} : Stops (Locator.ofJson v) ↔ v.ClashesAsUrl := by
  unfold Locator.ofJson
  rw [ClashesAsUrl]
  cases hblank : v.isBlank with
  | true => simp [Failure.isUnreadableRecord, Failure.isBadValue]
  | false =>
      cases v with
      | text s =>
          cases hs : Locator.of s with
          | ok l => simp [hs, kind]
          | error fault => simp [hs, kind, Failure.isUnreadableRecord, Failure.isBadValue]
      | _ => simp [kind, Failure.isUnreadableRecord, Failure.isBadValue]

def tagName (item : Json) : Except Failure String :=
  match item with
  | .text s =>
    match Tag.normalize? s with
    | some name => .ok name
    | none => .error .blankTag
  | item => .error (if item.isBlank then .blankTag else .noSuchOperation)

theorem tagName_eq_ok {item : Json} {name : String} :
    tagName item = .ok name ↔ ∃ s, item = .text s ∧ Tag.normalize? s = some name := by
  cases item with
  | text s =>
      rw [tagName]
      cases hs : Tag.normalize? s <;> simp [hs]
  | _ => simp [tagName]

theorem stops_tagName {item : Json} :
    Stops (tagName item) ↔ item.isBlank = false ∧ item.kind ≠ .text := by
  cases item with
  | text s =>
      rw [tagName]
      cases Tag.normalize? s <;> simp [kind, Failure.isUnreadableRecord, Failure.isBadValue]
  | _ =>
      rw [tagName]
      · split <;> simp_all [kind, Failure.isUnreadableRecord, Failure.isBadValue]
      · nofun

theorem not_stops_ofJson_tags_blank {v : Json} (hblank : v.isBlank = true) :
    ¬ Stops (Tags.ofJson v) := by
  unfold Tags.ofJson
  rw [hblank]
  exact not_stops_ok _

theorem ofJson_tags_eq {v : Json} (hblank : v.isBlank = false) (hkind : v.kind ≠ .text) :
    Tags.ofJson v = v.items >>= fun items => items.mapM tagName >>= fun names =>
      .ok (.ofList names) := by
  unfold Tags.ofJson
  rw [hblank]
  cases v with
  | text s => exact absurd rfl hkind
  | _ => rfl

theorem stops_ofJson_tags_iff {v : Json} (hblank : v.isBlank = false) (hkind : v.kind ≠ .text) :
    Stops (Tags.ofJson v) ↔
      Stops v.items ∨ ∃ items, v.items = .ok items ∧ Stops (items.mapM tagName) := by
  have hnames : ∀ items : List Json, Stops (items.mapM tagName >>= fun names =>
      (.ok (.ofList names) : Except Failure TagSet)) ↔ Stops (items.mapM tagName) := by
    intro items
    rw [stops_bind]
    constructor
    · rintro (hstops | ⟨names, -, hstops⟩)
      · exact hstops
      · exact absurd hstops (not_stops_ok _)
    · exact .inl
  rw [ofJson_tags_eq hblank hkind, stops_bind]
  simp only [hnames]

theorem not_stops_ofJson_tags {v : Json} {fault : KindFault}
    (hitems : v.items = .error (.kind fault)) (hkind : v.kind ≠ .text) :
    ¬ Stops (Tags.ofJson v) := by
  cases hblank : v.isBlank with
  | true => exact not_stops_ofJson_tags_blank hblank
  | false =>
      rw [stops_ofJson_tags_iff hblank hkind, hitems]
      simp [Failure.isUnreadableRecord, Failure.isBadValue]

theorem stops_ofJson_tags_list {items : List Json} :
    Stops (Tags.ofJson (.list items)) ↔ Stops (items.mapM tagName) := by
  cases items with
  | nil => exact iff_of_false (not_stops_ofJson_tags_blank rfl) (not_stops_ok _)
  | cons item rest =>
      rw [stops_ofJson_tags_iff rfl (by simp [kind])]
      simp [items]

theorem not_stops_ofJson_tags_object (members : List (String × Json)) :
    ¬ Stops (Tags.ofJson (.object members)) := by
  cases hblank : (Json.object members).isBlank with
  | true => exact not_stops_ofJson_tags_blank hblank
  | false =>
      rw [stops_ofJson_tags_iff hblank (by simp [kind])]
      rintro (hstops | ⟨items, hitems, hstops⟩)
      · exact absurd hstops (not_stops_ok _)
      · obtain rfl := Except.ok.inj hitems
        obtain ⟨front, item, more, hnames, -, hitem⟩ := stops_mapM.mp hstops
        have hmem : item ∈ members.map fun m => Json.text m.1 := by simp [hnames]
        obtain ⟨member, -, rfl⟩ := List.mem_map.mp hmem
        exact (stops_tagName.mp hitem).2 rfl

theorem stops_ofJson_tags {v : Json} : Stops (Tags.ofJson v) ↔ v.ClashesAsTags := by
  cases v with
  | list items =>
      rw [stops_ofJson_tags_list, stops_mapM, ClashesAsTags]
      simp only [stops_tagName, tagName_eq_ok, Json.list.injEq]
      constructor
      · rintro ⟨front, item, rest, hitems, hfront, hitem⟩
        refine ⟨front, item, rest, hitems, ?_, hitem⟩
        intro t ht
        obtain ⟨name, s, hs⟩ := hfront t ht
        exact ⟨s, name, hs⟩
      · rintro ⟨front, item, rest, hitems, hfront, hitem⟩
        refine ⟨front, item, rest, hitems, ?_, hitem⟩
        intro t ht
        obtain ⟨s, name, hs⟩ := hfront t ht
        exact ⟨name, s, hs⟩
  | object members => simpa [ClashesAsTags] using not_stops_ofJson_tags_object members
  | text s =>
      have htext : ¬ Stops (Tags.ofJson (.text s)) := by
        unfold Tags.ofJson
        split <;> exact not_stops_ok _
      simpa [ClashesAsTags] using htext
  | null => simpa [ClashesAsTags] using not_stops_ofJson_tags_blank (v := .null) rfl
  | bool b => simpa [ClashesAsTags] using not_stops_ofJson_tags (v := .bool b) rfl nofun
  | int n => simpa [ClashesAsTags] using not_stops_ofJson_tags (v := .int n) rfl nofun
  | float x => simpa [ClashesAsTags] using not_stops_ofJson_tags (v := .float x) rfl nofun

theorem stops_ofJson_color {v : Json} : Stops (Color.ofJson v) ↔ v.ClashesAsColor := by
  cases v with
  | null => simp [Color.ofJson, ClashesAsColor, kind]
  | text s =>
      rw [Color.ofJson]
      cases Color.read s <;>
        simp [ClashesAsColor, kind, Failure.isUnreadableRecord, Failure.isBadValue]
  | _ => simp [Color.ofJson, ClashesAsColor, kind, Failure.isUnreadableRecord, Failure.isBadValue]

end Json

namespace Bookmark

/-- How the value of a field is taken. -/
structure FieldCheck where
  fits : Prop
  clashes : Prop

/-- Whether the first field that its value does not fit has a clashing value. -/
def ClashesFirst : List FieldCheck → Prop
  | [] => False
  | check :: rest => check.clashes ∨ check.fits ∧ ClashesFirst rest

/-- The fields in the order in which they are read. -/
def fieldChecks (url : Json) (member : String → Json) : List FieldCheck :=
  [⟨∃ t, Timestamp.ofJson (member "created") = .ok t, (member "created").ClashesAsTime⟩,
    ⟨∃ t, Timestamp.ofJson (member "modified") = .ok t, (member "modified").ClashesAsTime⟩,
    ⟨∃ t, Timestamp.ofJson (member "lastVisited") = .ok t, (member "lastVisited").ClashesAsTime⟩,
    ⟨∃ n, visitCountOf (member "visitCount") = .ok n, (member "visitCount").ClashesAsCount⟩,
    ⟨∃ l, Locator.ofJson url = .ok l, url.ClashesAsUrl⟩,
    ⟨∃ set, Tags.ofJson (member "tags") = .ok set, (member "tags").ClashesAsTags⟩,
    ⟨∃ color, Color.ofJson (member "color") = .ok color, (member "color").ClashesAsColor⟩]

/-- Whether a value clashes as a record: it is no object, or has a URL and a clashing field. -/
def Clashes : Json → Prop
  | .object members => ∃ url, members.lookup "url" = some url ∧
      ClashesFirst (fieldChecks url fun name => (members.lookup name).getD .null)
  | _ => True

theorem stops_bind_iff {x : Except Failure α} {f : α → Except Failure β} {fits clashes : Prop}
    {rest : List FieldCheck} (hfits : (∃ a, x = .ok a) ↔ fits) (hclashes : Stops x ↔ clashes)
    (hrest : ∀ a, x = .ok a → (Stops (f a) ↔ ClashesFirst rest)) :
    Stops (x >>= f) ↔ ClashesFirst (⟨fits, clashes⟩ :: rest) := by
  rw [stops_bind, hclashes, ClashesFirst, ← hfits]
  constructor
  · rintro (hclash | ⟨a, ha, hstops⟩)
    · exact .inl hclash
    · exact .inr ⟨⟨a, ha⟩, (hrest a ha).mp hstops⟩
  · rintro (hclash | ⟨⟨a, ha⟩, hclash⟩)
    · exact .inl hclash
    · exact .inr ⟨a, ha, (hrest a ha).mpr hclash⟩

/-- The count that a record gives can be compared, so that a bookmark with it is kept or refused. -/
theorem not_stops_checked {v : Json} {b : Bookmark} (hcount : visitCountOf v = .ok b.visitCount) :
    ¬ Stops b.checked := by
  have hkinds : b.visitCount = .null ∨ ∃ n, b.visitCount = .int n := by
    cases v with
    | null => exact .inl (Except.ok.inj hcount).symm
    | _ =>
        obtain ⟨n, -, hn⟩ := bind_eq_ok.mp hcount
        exact .inr ⟨n, (Except.ok.inj hn).symm⟩
  rw [checked]
  rcases hkinds with hnull | ⟨n, hn⟩
  · rw [hnull]
    exact not_stops_ok _
  · rw [hn]
    have hcompare : ∃ below, (Json.int n).compareValues .less (.int 0) = .ok below := ⟨_, rfl⟩
    obtain ⟨below, hbelow⟩ := hcompare
    have hrefusal : ∀ shown, (if (Json.int n).hasOversized then Failure.oversizedInteger
        else .negativeVisits shown).isUnreadableRecord = true := by
      intro shown
      split <;> rfl
    simp only [Json.isNull, hbelow, ok_bind, if_neg Bool.false_ne_true]
    cases below with
    | false => exact not_stops_ok _
    | true =>
        rw [if_pos rfl, stops_bind, stops_throw, hrefusal]
        rintro (htrue | ⟨u, hthrow, -⟩)
        · cases htrue
        · cases hthrow

theorem stops_ofRecord_iff {record : Json} : Stops (ofRecord record) ↔ Clashes record := by
  cases record with
  | object members =>
      rw [ofRecord, Clashes]
      cases hurl : members.lookup "url" with
      | none => simp [Failure.isUnreadableRecord, Failure.isBadValue]
      | some url =>
          simp only [Option.some.injEq, exists_eq_left']
          refine stops_bind_iff Iff.rfl Json.stops_ofJson_time fun created _ => ?_
          refine stops_bind_iff Iff.rfl Json.stops_ofJson_time fun modified _ => ?_
          refine stops_bind_iff Iff.rfl Json.stops_ofJson_time fun lastVisited _ => ?_
          refine stops_bind_iff Iff.rfl Json.stops_visitCountOf fun visitCount hcount => ?_
          refine stops_bind_iff Iff.rfl Json.stops_ofJson_locator fun locator _ => ?_
          refine stops_bind_iff Iff.rfl Json.stops_ofJson_tags fun tags _ => ?_
          refine stops_bind_iff Iff.rfl Json.stops_ofJson_color fun color _ => ?_
          exact iff_of_false (not_stops_checked hcount) id
  | _ => simp [ofRecord, Clashes, Failure.isUnreadableRecord, Failure.isBadValue]

end Bookmark

end LinkShelf
