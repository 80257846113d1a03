import LinkShelf.Proofs.Bookmark.Decoding
import LinkShelf.Proofs.Text.Folding

/-!
The names of tags. Main statement: all tags that bookmarks get from fields or records are in normal
form, whether they come from a list or out of a text (`normalize?_of_mem_ofJson`).
-/

namespace LinkShelf

open Text

namespace Tag

variable {s t text : String} {cs : List Char}

theorem normalize?_eq_some_iff :
    normalize? s = some t ↔ t.toList = foldCase (strip s.toList) ∧ t ≠ "" := by
  rw [normalize?]
  cases foldCase (strip s.toList) with
  | nil =>
      constructor
      · nofun
      · rintro ⟨ht, hne⟩
        exact absurd (String.toList_eq_nil_iff.mp ht) hne
  | cons c cs =>
      constructor
      · rintro ⟨⟩
        exact ⟨String.toList_ofList, by simp⟩
      · rintro ⟨ht, -⟩
        apply congrArg some
        rw [← ht, String.ofList_toList]

theorem normalize?_strip (s : String) :
    normalize? (String.ofList (strip s.toList)) = normalize? s := by
  simp only [normalize?, String.toList_ofList, strip_strip]

/-- A name in normal form is its own normal form. -/
theorem normalize?_of_normalize? (h : normalize? s = some t) : normalize? t = some t := by
  obtain ⟨ht, hne⟩ := normalize?_eq_some_iff.mp h
  have hself : foldCase (strip t.toList) = t.toList := by
    rw [ht, strip_foldCase (strip_strip _), foldCase_foldCase]
  apply normalize?_eq_some_iff.mpr
  rw [hself, ht]
  exact ⟨rfl, hne⟩

theorem normalize?_of_mem_namesIn (ht : t ∈ namesIn text) : normalize? t = some t := by
  obtain ⟨piece, hpiece, rfl⟩ := List.mem_map.mp ht
  obtain ⟨hpiece, hne⟩ := List.mem_filter.mp hpiece
  have hblank : ∀ c ∈ piece, isBlank c = false := by
    intro c hc
    have hseparator := not_mem_pieces hpiece c hc
    rw [isSeparator, Bool.or_eq_false_iff] at hseparator
    exact hseparator.2
  have hstrip : strip piece = piece := by
    apply strip_eq_self
    · exact fun c hc => hblank c (List.mem_of_mem_head? hc)
    · exact fun c hc => hblank c (List.mem_of_mem_getLast? hc)
  apply normalize?_of_normalize? (s := String.ofList piece)
  apply normalize?_eq_some_iff.mpr
  rw [String.toList_ofList, String.toList_ofList, hstrip]
  exact ⟨rfl, by simpa [foldCase_eq_nil_iff] using hne⟩

end Tag

namespace Tags

variable {v : Json} {set : TagSet} {t : String}

theorem ofJson_cases (h : ofJson v = .ok set) :
    ∃ names, set = .ofList names ∧ ∀ name ∈ names, ∃ s, Tag.normalize? s = some name := by
  unfold ofJson at h
  split at h
  · cases h
    exact ⟨[], rfl, nofun⟩
  · split at h
    · cases h
      exact ⟨_, rfl, fun name hname => ⟨name, Tag.normalize?_of_mem_namesIn hname⟩⟩
    · obtain ⟨items, -, h⟩ := bind_eq_ok.mp h
      obtain ⟨names, hnames, h⟩ := bind_eq_ok.mp h
      cases h
      obtain ⟨-, rfl⟩ := mapM_eq_ok_iff.mp hnames
      refine ⟨_, rfl, ?_⟩
      intro name hname
      obtain ⟨item, -, hitem⟩ := List.mem_filterMap.mp hname
      rw [toOption_eq_some] at hitem
      split at hitem
      · next s =>
          refine ⟨s, ?_⟩
          split at hitem
          · next hs =>
              cases hitem
              exact hs
          · cases hitem
      · cases hitem

theorem normalize?_of_mem_ofJson (h : ofJson v = .ok set) (ht : t ∈ set.names) :
    Tag.normalize? t = some t := by
  obtain ⟨names, rfl, hnames⟩ := ofJson_cases h
  obtain ⟨s, hs⟩ := hnames t (TagSet.mem_ofList.mp ht)
  exact Tag.normalize?_of_normalize? hs

end Tags

namespace Bookmark

variable {b : Bookmark}

/-- Whether a bookmark was made from fields or read from a record. -/
def IsMade (b : Bookmark) : Prop := (∃ url f, of url f = .ok b) ∨ ∃ record, ofRecord record = .ok b

theorem IsMade.exists_tags (hb : b.IsMade) :
    ∃ set, b.tags = .names set ∧ ∀ t ∈ set.names, Tag.normalize? t = some t := by
  have hof : ∃ url f, of url f = .ok b := by
    obtain hof | ⟨record, hrecord⟩ := hb
    · exact hof
    · obtain ⟨url, f, hof, -⟩ := ofRecord_cases hrecord
      exact ⟨url, f, hof⟩
  obtain ⟨url, f, hof⟩ := hof
  obtain ⟨locator, set, color, -, hset, -, -, rfl⟩ := of_cases hof
  exact ⟨set, rfl, fun t ht => Tags.normalize?_of_mem_ofJson hset ht⟩

end Bookmark

end LinkShelf
