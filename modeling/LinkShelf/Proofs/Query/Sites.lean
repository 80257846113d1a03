import LinkShelf.Proofs.Query.Tagged
import LinkShelf.Proofs.Text.Blank

/-!
Queries for sites. Main statement: a site is found by its labels, which end those of the host, and
what a narrower site finds is found by the site too (`sites_found`).
-/

namespace LinkShelf

open Text

/-- The labels of the name of a host. -/
def labels (host : String) : List (List Char) := pieces (· == '.') host.toList

theorem labels_append (sub host : String) :
    labels (sub ++ "." ++ host) = labels sub ++ labels host := by
  rw [labels, String.toList_append, String.toList_append, List.append_assoc]
  exact pieces_append_cons (c := '.') rfl sub.toList host.toList

theorem joinWith_labels (host : String) : joinWith ['.'] (labels host) = host.toList :=
  joinWith_pieces '.' host.toList

theorem labels_suffix_iff {site host : String} :
    labels site <:+ labels host ↔ host = site ∨ ∃ sub, host = sub ++ "." ++ site := by
  constructor
  · rintro ⟨front, hfront⟩
    rw [← String.toList_inj, ← joinWith_labels host, ← hfront]
    by_cases hne : front = []
    · left
      rw [hne, List.nil_append, joinWith_labels]
    · right
      refine ⟨String.ofList (joinWith ['.'] front), ?_⟩
      have hback : labels site ≠ [] := pieces_ne_nil _ _
      rw [← String.toList_inj, ← joinWith_labels host, ← hfront, joinWith_append hne hback,
        joinWith_labels]
      simp
  · rintro (rfl | ⟨sub, rfl⟩)
    · exact List.suffix_rfl
    · rw [labels_append]
      exact List.suffix_append _ _

/-- Whether a bookmark's host has the labels of a site at its end. -/
def Bookmark.isUnder (site : String) (b : Bookmark) : Bool :=
  b.locator.host?.any fun host => (labels site).isSuffixOf (labels host)

namespace Bookmark

variable {b : Bookmark} {site : String}

theorem isUnder_iff :
    b.isUnder site = true ↔ ∃ host, b.locator.host? = some host ∧ labels site <:+ labels host := by
  rw [isUnder, Option.any_eq_true]
  simp only [List.isSuffixOf_iff_suffix]

theorem holds_site (zone : Zone) (site : String) (b : Bookmark) :
    Filter.holds zone (.site site) b = .ok (b.isUnder site) := by
  rw [Filter.holds, Except.ok.injEq, Bool.eq_iff_iff, isUnder_iff]
  cases b.locator.host? with
  | none => simp
  | some host => simp [Filter.isWithinSite_iff, labels_suffix_iff]

/-- A host that ends in the characters of a site is under it if they start a label. -/
theorem isUnder_iff_of_append {front : String}
    (hhost : b.locator.host? = some (front ++ site)) :
    b.isUnder site = true ↔ front = "" ∨ ∃ sub, front = sub ++ "." := by
  simp only [isUnder_iff, hhost, Option.some.injEq, exists_eq_left', labels_suffix_iff]
  apply or_congr
  · exact String.append_eq_right_iff
  · exact exists_congr fun sub => String.append_left_inj site

theorem isUnder_of_narrower {sub : String} (hunder : b.isUnder (sub ++ "." ++ site) = true) :
    b.isUnder site = true := by
  obtain ⟨host, hhost, hlabels⟩ := isUnder_iff.mp hunder
  rw [labels_append] at hlabels
  exact isUnder_iff.mpr ⟨host, hhost, (List.suffix_append _ _).trans hlabels⟩

end Bookmark

namespace Query

variable {present : Present} {zone : Zone} {argument narrower site : String}

/-- The name of the site that an argument writes. -/
def siteOf (argument : String) : String := String.ofList (lower (strip argument.toList))

theorem resultOf_site (hsite : siteOf argument ≠ "") (bookmarks : List Bookmark) :
    resultOf present zone ("site:" ++ argument) bookmarks =
      .ok (bookmarks.filter (·.isUnder (siteOf argument))) := by
  apply resultOf_keep (.site (siteOf argument))
  · rw [show "site:" ++ argument = "site" ++ ":" ++ argument from rfl,
      ofWord_action (by decide) rfl]
    have hcompile : ∀ t : Term, t.action = "site" →
        Registry.builtin.compile present t = Action.site present t := by
      intro t ht
      rw [Registry.compile, ht]
      rfl
    rw [hcompile _ rfl, Action.site]
    simp only [String.toList_ofList, strip_strip]
    cases hlower : lower (strip argument.toList) with
    | nil =>
        rw [siteOf, hlower] at hsite
        exact absurd rfl hsite
    | cons c cs =>
        rw [siteOf, hlower]
  · exact fun b _ => b.holds_site zone _

/-- The name of a site stays as it is behind a full stop. -/
theorem siteOf_append (sub argument : String) :
    ∃ wider, siteOf (sub ++ "." ++ siteOf argument) = wider ++ "." ++ siteOf argument := by
  have hsite : (siteOf argument).toList = lower (strip argument.toList) := String.toList_ofList
  have hlower : ∀ c ∈ '.' :: (siteOf argument).toList, IsLower c := by
    have hstop : IsCaseless '.' := by decide
    rw [hsite, List.forall_mem_cons]
    exact ⟨hstop.isLower, fun _ => isLower_of_mem_lower⟩
  have hstrip : strip (siteOf argument).toList = (siteOf argument).toList := by
    rw [hsite]
    exact strip_lower (strip_strip _)
  obtain ⟨wider, hwider⟩ := exists_lowerAfter_append [] (sub.toList.dropWhile isBlank)
    ('.' :: (siteOf argument).toList)
  rw [lowerAfter_of_isLower hlower] at hwider
  refine ⟨String.ofList wider, ?_⟩
  rw [← String.toList_inj, siteOf, String.toList_ofList, String.toList_append, String.toList_append,
    List.append_assoc]
  refine (congrArg lower (strip_append_cons (c := '.') rfl hstrip _)).trans ?_
  rw [lower, hwider]
  simp

/-- A site finds the bookmarks whose hosts have its labels at their ends. A host that ends in the
site's characters in the middle of a label is not found, and all that a site in it finds is. -/
theorem sites_found (hsite : siteOf argument ≠ "") (present : Present) (zone : Zone) :
    (∀ bookmarks, resultOf present zone ("site:" ++ argument) bookmarks =
      .ok (bookmarks.filter (·.isUnder (siteOf argument)))) ∧
    (∀ (b : Bookmark) (front : String), b.locator.host? = some (front ++ siteOf argument) →
      (b.isUnder (siteOf argument) = true ↔ front = "" ∨ ∃ sub, front = sub ++ ".")) ∧
    ∀ sub narrower, narrower = sub ++ "." ++ siteOf argument ∨
        siteOf narrower = sub ++ "." ++ siteOf argument →
      ∀ bookmarks, ∃ found more,
        resultOf present zone ("site:" ++ narrower) bookmarks = .ok found ∧
        resultOf present zone ("site:" ++ argument) bookmarks = .ok more ∧ found.Sublist more := by
  refine ⟨resultOf_site hsite, ?_, ?_⟩
  · intro b front hhost
    exact Bookmark.isUnder_iff_of_append hhost
  · intro sub narrower hnarrower bookmarks
    obtain ⟨wider, hwider⟩ : ∃ wider, siteOf narrower = wider ++ "." ++ siteOf argument := by
      obtain rfl | hform := hnarrower
      · exact siteOf_append sub argument
      · exact ⟨sub, hform⟩
    have hne : siteOf narrower ≠ "" := by
      rw [hwider]
      simp
    refine ⟨_, _, resultOf_site hne bookmarks, resultOf_site hsite bookmarks, ?_⟩
    rw [hwider]
    exact List.monotone_filter_right bookmarks fun b => Bookmark.isUnder_of_narrower

/-- Upper-case letters and white space around a site's name do not count. -/
theorem sites_found_docs : ∃ docs other,
    Bookmark.of (.text "http://docs.example.com/a") {} = .ok docs ∧
      Bookmark.of (.text "http://notexample.com/") {} = .ok other ∧
      siteOf " Example.COM " = "example.com" ∧
      resultOf samplePresent .utc "site: Example.COM " [docs, other] = .ok [docs] := by
  have hdocs : ∃ docs, Bookmark.of (.text "http://docs.example.com/a") {} = .ok docs ∧
      docs.locator.host? = some ("docs." ++ "example.com") := ⟨_, rfl, by decide⟩
  have hother : ∃ other, Bookmark.of (.text "http://notexample.com/") {} = .ok other ∧
      other.locator.host? = some ("not" ++ "example.com") := ⟨_, rfl, by decide⟩
  obtain ⟨docs, hdocs, hdocsHost⟩ := hdocs
  obtain ⟨other, hother, hotherHost⟩ := hother
  have hsite : siteOf " Example.COM " = "example.com" := by decide
  refine ⟨docs, other, hdocs, hother, hsite, ?_⟩
  have hnamed : siteOf " Example.COM " ≠ "" := by
    rw [hsite]
    decide
  obtain ⟨hfound, hlabels, -⟩ := sites_found hnamed samplePresent .utc
  rw [hsite] at hfound hlabels
  have hunder : docs.isUnder "example.com" = true :=
    (hlabels docs "docs." hdocsHost).mpr (.inr ⟨"docs", rfl⟩)
  have hnot : other.isUnder "example.com" = false := by
    rw [Bool.eq_false_iff, ne_eq, hlabels other "not" hotherHost]
    rintro (hempty | ⟨sub, hsub⟩)
    · exact absurd hempty (by decide)
    · have hlast := congrArg (fun s => s.toList.getLast?) hsub
      simp at hlast
  rw [show "site: Example.COM " = "site:" ++ " Example.COM " from rfl, hfound]
  simp [hunder, hnot]

end Query

end LinkShelf
