import LinkShelf.Proofs.Bookmark.Tags
import LinkShelf.Proofs.Query.Meaning
import LinkShelf.Proofs.Text.Pieces

/-!
Queries for tags. Main statement: however a tag in use is spelled in a query, it finds the bookmarks
that have it, and the bookmarks without tags are those that no tag in use finds (`tags_found`).
-/

namespace LinkShelf

open Text

variable {present : Present} {zone : Zone} {bookmarks : List Bookmark} {b : Bookmark}

namespace Bookmark

/-- Whether a bookmark has a tag. -/
def carries (tag : String) (b : Bookmark) : Bool :=
  match b.tags with
  | .names set => set.contains tag
  | .other _ => false

theorem carries_iff {tag : String} {set : TagSet} (hset : b.tags = .names set) :
    b.carries tag = true ↔ tag ∈ set.names := by
  rw [carries, hset]
  simp [TagSet.contains]

theorem IsMade.holds_tag (hb : b.IsMade) (tag : String) :
    Filter.holds zone (.tag tag) b = .ok (b.carries tag) := by
  obtain ⟨set, hset, -⟩ := hb.exists_tags
  rw [Filter.holds, carries, hset]
  rfl

theorem IsMade.isBlank_iff (hb : b.IsMade) :
    b.tags.isBlank = true ↔ ∀ tag, b.carries tag = false := by
  obtain ⟨set, hset, -⟩ := hb.exists_tags
  simp only [← Bool.not_eq_true, carries_iff hset]
  rw [hset]
  simp [Tags.isBlank, TagSet.isEmpty, List.eq_nil_iff_forall_not_mem]

end Bookmark

/-! ## All tags -/

namespace Store

theorem insertTag_text (found : List String) (tag : String) :
    insertTag (found.map Json.text) (.text tag) =
      .ok ((if tag ∈ found then found else found ++ [tag]).map Json.text) := by
  have hany : ((found.map Json.text).any fun other => (Json.text tag).same other) =
      decide (tag ∈ found) := by
    rw [List.any_map, Bool.eq_iff_iff]
    simp [Json.same]
  rw [insertTag, hany]
  · by_cases htag : tag ∈ found <;> simp [htag]
  · intro items hitems
    cases hitems
  · intro fields hfields
    cases hfields

theorem foldlM_insertTag (names found : List String) :
    ∃ tags : List String,
      (names.map Json.text).foldlM insertTag (found.map .text) = .ok (tags.map .text) ∧
        ∀ tag, tag ∈ tags ↔ tag ∈ found ∨ tag ∈ names := by
  induction names generalizing found with
  | nil => exact ⟨found, rfl, by simp⟩
  | cons name names ih =>
      obtain ⟨tags, htags, hmem⟩ := ih (if name ∈ found then found else found ++ [name])
      refine ⟨tags, ?_, ?_⟩
      · rw [List.map_cons, List.foldlM_cons, insertTag_text, ok_bind, htags]
      · intro tag
        rw [hmem]
        by_cases hname : name ∈ found
        · rw [if_pos hname, List.mem_cons]
          constructor
          · rintro (htag | htag)
            · exact .inl htag
            · exact .inr (.inr htag)
          · rintro (htag | rfl | htag)
            · exact .inl htag
            · exact .inl hname
            · exact .inr htag
        · simp [hname, or_assoc]

/-- The tags of bookmarks are the names that some of them have. -/
theorem tagsOf_eq (hbookmarks : ∀ b ∈ bookmarks, b.IsMade) :
    ∃ tags : List String, tagsOf bookmarks = .ok (tags.map .text) ∧
      ∀ tag, tag ∈ tags ↔ ∃ b ∈ bookmarks, b.carries tag = true := by
  suffices hrun : ∀ found : List String, ∃ tags : List String,
      bookmarks.foldlM (fun found b => do (← b.tags.items).foldlM insertTag found)
        (found.map Json.text) = .ok (tags.map .text) ∧
      ∀ tag, tag ∈ tags ↔ tag ∈ found ∨ ∃ b ∈ bookmarks, b.carries tag = true by
    obtain ⟨tags, htags, hmem⟩ := hrun []
    exact ⟨tags, htags, by simpa using hmem⟩
  induction bookmarks with
  | nil => exact fun found => ⟨found, rfl, by simp⟩
  | cons b rest ih =>
      intro found
      obtain ⟨hb, hrest⟩ := List.forall_mem_cons.mp hbookmarks
      obtain ⟨set, hset, -⟩ := hb.exists_tags
      obtain ⟨next, hnext, hmemNext⟩ := foldlM_insertTag set.names found
      obtain ⟨tags, htags, hmem⟩ := ih hrest next
      have hitems : b.tags.items = .ok (set.names.map .text) := by
        rw [hset]
        rfl
      refine ⟨tags, ?_, ?_⟩
      · rw [List.foldlM_cons, hitems, ok_bind, hnext, ok_bind, htags]
      · intro tag
        rw [hmem, hmemNext, ← Bookmark.carries_iff hset]
        simp [or_assoc]

end Store

/-! ## Queries -/

namespace Query

/-- What the query of one word gives. -/
def resultOf (present : Present) (zone : Zone) (word : String) (bookmarks : List Bookmark) :
    Except Failure (List Bookmark) := do
  (← ofTerms .builtin present [Term.ofWord word]).run zone bookmarks

theorem resultOf_keep {word : String} (test : Filter) {f : Bookmark → Bool}
    (hcompile : Registry.builtin.compile present (Term.ofWord word) = .ok (.keep test))
    (htest : ∀ b ∈ bookmarks, test.holds zone b = .ok (f b)) :
    resultOf present zone word bookmarks = .ok (bookmarks.filter f) := by
  have hkept : bookmarks.filterM (fun b => test.holds zone b) = .ok (bookmarks.filter f) := by
    apply filterM_eq_ok_iff.mpr
    constructor
    · exact fun b hb => ⟨_, htest b hb⟩
    · apply List.filter_congr
      intro b hb
      simp [htest b hb, Except.toOption]
  simp only [resultOf, ofTerms, List.mapM_cons, List.mapM_nil, hcompile, pure_bind, ok_bind, run,
    List.foldlM_cons, List.foldlM_nil, Stage.run, hkept]
  rfl

theorem compile_tagged {action s name : String} (haction : action = "tagged" ∨ action = "tag")
    (hs : Tag.normalize? s = some name) :
    Registry.builtin.compile present ⟨action, s⟩ = .ok (.keep (.tag name)) := by
  have htagged : Registry.builtin.compile present ⟨action, s⟩ =
      Action.tagged present ⟨action, s⟩ := by
    obtain rfl | rfl := haction <;> rfl
  rw [htagged, Action.tagged, hs]

theorem ofWord_action {action : String} (hcolon : ':' ∉ action.toList)
    (haction : lower (strip action.toList) = action.toList) (s : String) :
    Term.ofWord (action ++ ":" ++ s) = ⟨action, String.ofList (strip s.toList)⟩ := by
  have hcut : cutFirst (· == ':') (action ++ ":" ++ s).toList = some (action.toList, s.toList) := by
    rw [String.toList_append, String.toList_append, List.append_assoc]
    exact cutFirst_append (c := ':') rfl (beq_of_not_mem hcolon)
  rw [Term.ofWord, hcut]
  simp only [haction, String.ofList_toList]

theorem ofWord_bare {s : String} (hcolon : ':' ∉ s.toList) : Term.ofWord s = ⟨"tagged", s⟩ := by
  have hcut : cutFirst (· == ':') s.toList = none := cutFirst_eq_none.mpr (beq_of_not_mem hcolon)
  rw [Term.ofWord, hcut]

theorem resultOf_tagged (hbookmarks : ∀ b ∈ bookmarks, b.IsMade) (action : String) {s t : String}
    (haction : action = "tagged" ∨ action = "tag") (hs : Tag.normalize? s = some t) :
    resultOf present zone (action ++ ":" ++ s) bookmarks =
      .ok (bookmarks.filter (·.carries t)) := by
  apply resultOf_keep (.tag t)
  · rw [ofWord_action (by obtain rfl | rfl := haction <;> decide)
      (by obtain rfl | rfl := haction <;> rfl)]
    exact compile_tagged haction ((Tag.normalize?_strip s).trans hs)
  · exact fun b hb => (hbookmarks b hb).holds_tag t

theorem resultOf_bare (hbookmarks : ∀ b ∈ bookmarks, b.IsMade) {s t : String}
    (hcolon : ':' ∉ s.toList) (hs : Tag.normalize? s = some t) :
    resultOf present zone s bookmarks = .ok (bookmarks.filter (·.carries t)) := by
  apply resultOf_keep (.tag t)
  · rw [ofWord_bare hcolon]
    exact compile_tagged (.inl rfl) hs
  · exact fun b hb => (hbookmarks b hb).holds_tag t

/-- A tag in any spelling finds the bookmarks that have it, as they stand, also in a word without an
action. The tags in use are spelled as they are found, and the bookmarks that no tag in use finds
are those without tags. -/
theorem tags_found (hbookmarks : ∀ b ∈ bookmarks, b.IsMade) (present : Present) (zone : Zone) :
    (∀ t s, Tag.normalize? s = some t →
      resultOf present zone ("tagged:" ++ s) bookmarks = .ok (bookmarks.filter (·.carries t)) ∧
      resultOf present zone ("tag:" ++ s) bookmarks = .ok (bookmarks.filter (·.carries t)) ∧
      (':' ∉ s.toList →
        resultOf present zone s bookmarks = .ok (bookmarks.filter (·.carries t)))) ∧
    ∃ (tags : List String) (untagged : List Bookmark),
      Store.tagsOf bookmarks = .ok (tags.map .text) ∧
      (∀ t, t ∈ tags ↔ ∃ b ∈ bookmarks, b.carries t = true) ∧
      (∀ t ∈ tags, Tag.normalize? t = some t) ∧
      resultOf present zone "is:untagged" bookmarks = .ok untagged ∧
      ∀ b, b ∈ untagged ↔ b ∈ bookmarks ∧ ∀ t ∈ tags, ∃ found,
        resultOf present zone ("tagged:" ++ t) bookmarks = .ok found ∧ b ∉ found := by
  constructor
  · intro t s hs
    refine ⟨resultOf_tagged hbookmarks "tagged" (.inl rfl) hs,
      resultOf_tagged hbookmarks "tag" (.inr rfl) hs, ?_⟩
    exact fun hcolon => resultOf_bare hbookmarks hcolon hs
  · obtain ⟨tags, htags, hmem⟩ := Store.tagsOf_eq hbookmarks
    have hnormal : ∀ t ∈ tags, Tag.normalize? t = some t := by
      intro t ht
      obtain ⟨b, hb, hcarries⟩ := (hmem t).mp ht
      obtain ⟨set, hset, hnormal⟩ := (hbookmarks b hb).exists_tags
      exact hnormal t ((Bookmark.carries_iff hset).mp hcarries)
    refine ⟨tags, bookmarks.filter (·.tags.isBlank), htags, hmem, hnormal, ?_, ?_⟩
    · exact resultOf_keep .untagged rfl fun b _ => rfl
    · intro b
      rw [List.mem_filter]
      apply and_congr_right
      intro hb
      rw [(hbookmarks b hb).isBlank_iff]
      constructor
      · intro hnone t ht
        refine ⟨_, resultOf_tagged hbookmarks "tagged" (.inl rfl) (hnormal t ht), ?_⟩
        simp [hnone t]
      · intro hnone t
        apply Bool.eq_false_iff.mpr
        intro hcarries
        have ht : t ∈ tags := (hmem t).mpr ⟨b, hb, hcarries⟩
        obtain ⟨found, hresult, hb'⟩ := hnone t ht
        cases hresult.symm.trans (resultOf_tagged hbookmarks "tagged" (.inl rfl) (hnormal t ht))
        exact hb' (List.mem_filter.mpr ⟨hb, hcarries⟩)

def streetFields : Fields := { tags := .list [.text " Große : Straße "] }

/-- A tag with white space and a colon in it is found by another spelling of it. -/
theorem tags_found_street : ∃ street plain,
    Bookmark.of (.text "http://a.org/") streetFields = .ok street ∧
      Bookmark.of (.text "http://b.org/") {} = .ok plain ∧
      street.carries "grosse : strasse" = true ∧
      resultOf samplePresent .utc "tagged:GROSSE : strasse" [street, plain, street] =
        .ok [street, street] := by
  have hstreet : ∃ street, Bookmark.of (.text "http://a.org/") streetFields = .ok street ∧
      street.carries "grosse : strasse" = true := ⟨_, rfl, rfl⟩
  have hplain : ∃ plain, Bookmark.of (.text "http://b.org/") {} = .ok plain ∧
      plain.carries "grosse : strasse" = false := ⟨_, rfl, rfl⟩
  obtain ⟨street, hstreet, hcarries⟩ := hstreet
  obtain ⟨plain, hplain, hnot⟩ := hplain
  have hbookmarks : ∀ b ∈ [street, plain, street], b.IsMade := by
    simp only [List.forall_mem_cons]
    exact ⟨.inl ⟨_, _, hstreet⟩, .inl ⟨_, _, hplain⟩, .inl ⟨_, _, hstreet⟩, nofun⟩
  refine ⟨street, plain, hstreet, hplain, hcarries, ?_⟩
  obtain ⟨hfound, -⟩ := (tags_found hbookmarks samplePresent .utc).1 "grosse : strasse"
    "GROSSE : strasse" rfl
  rw [show "tagged:GROSSE : strasse" = "tagged:" ++ "GROSSE : strasse" from rfl, hfound]
  simp [hcarries, hnot]

end Query

end LinkShelf
