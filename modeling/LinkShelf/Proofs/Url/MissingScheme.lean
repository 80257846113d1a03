import LinkShelf.Proofs.Url.NormalForm

/-!
URLs without a scheme. Main statement: a URL that does not begin with a scheme is read as one with
`http://` in front exactly if a colon and two slashes stand nowhere in it
(`normalize_eq_http_iff`). One that embeds another URL, in its query for instance, is taken to have
a scheme and stays as it is (`normalize_of_embedded`).
-/

namespace LinkShelf.Url

open Text

/-- Whether a text begins with a scheme, a letter and then letters, digits, `+`, `-` and `.`, and
with a colon and two slashes after it. -/
def startsWithScheme (url : List Char) : Bool :=
  (url.takeWhile isSchemeChar).head?.any Char.isAlpha &&
    "://".toList.isPrefixOf (url.dropWhile isSchemeChar)

theorem startsWithScheme_webText {name : List Char} (hname : name.map Char.toLower ∈ webSchemes)
    (rest : List Char) : startsWithScheme (webText name rest) = true := by
  have halpha := isAlpha_of_mem_webScheme hname
  have hchars : ∀ c ∈ name, isSchemeChar c = true := fun c hc => by
    simp [isSchemeChar, Char.isAlphanum, halpha c hc]
  have hcolon : ∀ c, (':' :: '/' :: '/' :: rest).head? = some c → isSchemeChar c = false := by
    intro c hc
    obtain rfl : ':' = c := by simpa using hc
    decide
  have hspan := span_append hchars hcolon
  rw [List.span_eq_takeWhile_dropWhile, Prod.mk.injEq] at hspan
  obtain ⟨c, cs, rfl, -⟩ := exists_letter hname
  rw [startsWithScheme, webText, hspan.1, hspan.2]
  simp [halpha c (by simp)]

/-- A text that begins with no scheme is no web address. -/
theorem isWeb_of_startsWithScheme {url : List Char} (hurl : startsWithScheme url = false) :
    isWeb url = false := by
  rw [Bool.eq_false_iff]
  intro hweb
  obtain ⟨name, rest, rfl, hname⟩ := exists_of_isWeb hweb
  rw [startsWithScheme_webText hname] at hurl
  cases hurl

theorem namesScheme_of_not_opaque {url : List Char}
    (hopen : ∀ scheme ∈ opaqueSchemes, ¬ scheme <+: lower url) :
    namesScheme url = contains "://".toList url := by
  have hnone : (opaqueSchemes.any fun scheme => scheme.isPrefixOf (lower url)) = false := by
    rw [List.any_eq_false]
    intro scheme hscheme
    rw [List.isPrefixOf_iff_prefix]
    exact hopen scheme hscheme
  rw [namesScheme, hnone, Bool.or_false]

section

variable {t : List Char}

theorem isWeb_http (rest : List Char) : isWeb ("http://".toList ++ rest) = true := by
  have hhttp : "http".toList.map Char.toLower ∈ webSchemes := by decide
  exact isWeb_webText hhttp rest

/-- With `http://` in front, a URL is a web address. -/
theorem normalize_http_strip (t : List Char) :
    normalize ("http://".toList ++ strip t) = normalizeWeb ("http://".toList ++ strip t) := by
  have hend : stripEnd (strip t) = strip t :=
    dropEndWhile_of_getLast? isBlank _ fun _ => getLast?_strip t
  have hnormal : normalize (webText "http".toList (strip t)) =
      normalizeWeb (webText "http".toList (stripEnd (strip t))) := normalize_webText (by decide) _
  rw [hend] at hnormal
  exact hnormal

/-- A URL in which nothing looks like a scheme is read as a web address. -/
theorem normalize_of_plain (ht : strip t ≠ [])
    (hopen : ∀ scheme ∈ opaqueSchemes, ¬ scheme <+: lower (strip t))
    (hplain : contains "://".toList (strip t) = false) :
    normalize t = normalize ("http://".toList ++ strip t) := by
  have hempty : (strip t).isEmpty = false := by simpa using ht
  rw [normalize_http_strip, normalize, normalizeStripped]
  simp only [hempty, namesScheme_of_not_opaque hopen, hplain, isWeb_http, Bool.false_eq_true,
    if_false, if_true]

/-- A URL that begins with no scheme stays as it is where a colon and two slashes stand in it. -/
theorem normalize_of_embedded (hscheme : startsWithScheme (strip t) = false)
    (hembedded : contains "://".toList (strip t) = true) : normalize t = .ok (strip t) := by
  have hempty : (strip t).isEmpty = false := by
    cases hstrip : strip t with
    | nil => simp [hstrip, contains] at hembedded
    | cons c cs => rfl
  have hnames : namesScheme (strip t) = true := by rw [namesScheme, hembedded, Bool.true_or]
  rw [normalize, normalizeStripped]
  simp only [hempty, hnames, isWeb_of_startsWithScheme hscheme, Bool.false_eq_true, if_false,
    if_true]

/-- What comes of a web address is a web address, and a text without a scheme is none. -/
theorem normalize_http_ne (hscheme : startsWithScheme (strip t) = false) :
    (normalize ("http://".toList ++ strip t)).toOption ≠ some (strip t) := by
  rw [normalize_http_strip, ne_eq, toOption_eq_some]
  intro hsame
  have hstay := isWeb_of_normalizeWeb (isWeb_http _) hsame
  rw [isWeb_of_startsWithScheme hscheme] at hstay
  cases hstay

/-- A URL that begins with no scheme has the normal form that it has with `http://` in front, or
neither is a URL, exactly if a colon and two slashes stand nowhere in it. -/
theorem normalize_eq_http_iff (ht : strip t ≠ []) (hscheme : startsWithScheme (strip t) = false)
    (hopen : ∀ scheme ∈ opaqueSchemes, ¬ scheme <+: lower (strip t)) :
    (normalize t).toOption = (normalize ("http://".toList ++ strip t)).toOption ↔
      contains "://".toList (strip t) = false := by
  cases hembedded : contains "://".toList (strip t) with
  | false => simp [normalize_of_plain ht hopen hembedded]
  | true =>
      rw [normalize_of_embedded hscheme hembedded]
      simpa [Except.toOption] using (normalize_http_ne hscheme).symm

end

/-- The address of a page with another page's address in its query. -/
def mirrorUrl : List Char := "a.org/?u=http://b.org/".toList

theorem strip_mirrorUrl : strip mirrorUrl = mirrorUrl := by decide

/-- It begins with no scheme, and with none that is written without slashes. -/
theorem mirrorUrl_without_scheme : strip mirrorUrl ≠ [] ∧
    startsWithScheme (strip mirrorUrl) = false ∧
    ∀ scheme ∈ opaqueSchemes, ¬ scheme <+: lower (strip mirrorUrl) := by
  rw [strip_mirrorUrl, lower_ascii (by decide)]
  decide

theorem normalize_eq_http_iff_mirrorUrl :
    (normalize mirrorUrl).toOption = (normalize ("http://".toList ++ strip mirrorUrl)).toOption ↔
      contains "://".toList (strip mirrorUrl) = false :=
  normalize_eq_http_iff mirrorUrl_without_scheme.1 mirrorUrl_without_scheme.2.1
    mirrorUrl_without_scheme.2.2

/-- The address in the query keeps the page's own from being read as a web address. -/
theorem normalize_ne_http_mirrorUrl :
    (strip mirrorUrl ≠ [] ∧ startsWithScheme (strip mirrorUrl) = false ∧
      ∀ scheme ∈ opaqueSchemes, ¬ scheme <+: lower (strip mirrorUrl)) ∧
    (normalize mirrorUrl).toOption ≠
      (normalize ("http://".toList ++ strip mirrorUrl)).toOption := by
  refine ⟨mirrorUrl_without_scheme, ?_⟩
  have hembedded : contains "://".toList (strip mirrorUrl) = true := by
    rw [strip_mirrorUrl]
    decide
  rw [normalize_of_embedded mirrorUrl_without_scheme.2.1 hembedded]
  exact (normalize_http_ne mirrorUrl_without_scheme.2.1).symm

end LinkShelf.Url
