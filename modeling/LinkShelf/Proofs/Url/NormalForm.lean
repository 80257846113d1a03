import LinkShelf.Proofs.Url.Settling

/-!
Which URLs are their own normal form. A URL of another scheme is; a web address is one exactly if it
has no white space around it and either a port that cannot be read or only settled parts
(`normalize_eq_self_iff`). So normal forms are not always kept when they are taken again: an escape
may be uncovered by decoding, white space or an empty parameter by the removal of dot segments, and
an address without an authority may lose a slash.
-/

namespace LinkShelf.Url

open Text

variable {L : Layout} {p : Parts} {port : Option Nat}

/-- Whether parts are written in the settled way: a settled authority, a path without dot segments,
and only settled escapes in the path, the query and the fragment. -/
structure Parts.IsSettled (p : Parts) : Prop where
  authority : IsSettledAuthority p.scheme p.authority
  path : ∃ rest, p.path = '/' :: rest ∧ areEscapesSettled rest = true ∧
    ∀ segment ∈ segments rest, isDotSegment segment = false
  query : areEscapesSettled p.query = true
  fragment : areEscapesSettled p.fragment = true

/-- Whether a URL is in normal form. A web address has nothing around it, and its port cannot be
read or it is the text of settled parts. -/
def IsNormal (url : List Char) : Prop :=
  isWeb url = true → strip url = url ∧
    ∃ p, split url = .ok p ∧ (p.port = .unreadable ∨ (p.join = url ∧ p.IsSettled))

theorem settle_eq_self_iff (hport : p.port = .of port)
    (hpath : p.path = [] ∨ p.path.head? = some '/') : p.settle port = p ↔ p.IsSettled := by
  have hsettled : settledPath p.path = p.path ↔ ∃ rest, p.path = '/' :: rest ∧
      areEscapesSettled rest = true ∧ ∀ segment ∈ segments rest, isDotSegment segment = false := by
    constructor
    · intro hsame
      rcases hpath with hempty | hslash
      · rw [hempty, settledPath_nil] at hsame
        cases hsame
      · obtain ⟨rest, hrest⟩ := List.head?_eq_some_iff.mp hslash
        rw [hrest] at hsame
        exact ⟨rest, hrest, settledPath_eq_self_iff.mp hsame⟩
    · rintro ⟨rest, hrest, hsame⟩
      rw [hrest]
      exact settledPath_eq_self_iff.mpr hsame
  have hfields : p.settle port = p ↔ settledAuthority p port = p.authority ∧
      settledPath p.path = p.path ∧ decodeUnreserved p.query = p.query ∧
      decodeUnreserved p.fragment = p.fragment := by
    obtain ⟨scheme, authority, path, params, query, fragment⟩ := p
    simp [Parts.settle]
  rw [hfields, settledAuthority_eq_self_iff hport, hsettled, decodeUnreserved_eq_self_iff,
    decodeUnreserved_eq_self_iff]
  constructor
  · rintro ⟨hauthority, hpath, hquery, hfragment⟩
    exact ⟨hauthority, hpath, hquery, hfragment⟩
  · intro h
    exact ⟨h.authority, h.path, h.query, h.fragment⟩

/-- A layout that is made of its own settled parts has settled parts. -/
theorem settle_of_layout {scheme : List Char} (hL : L.IsWellFormed)
    (hauthority : settledAuthority (L.parts scheme) port = L.authority)
    (hpath : ((L.parts scheme).settle port).fullPath = L.path)
    (hquery : decodeUnreserved L.query = L.query)
    (hfragment : decodeUnreserved L.fragment = L.fragment) :
    (L.parts scheme).settle port = L.parts scheme := by
  have hslash : L.path ≠ [] := by
    intro hempty
    rw [fullPath_settle_of_nil scheme hempty, hempty] at hpath
    cases hpath
  have hlength := length_fullPath_settle_le scheme hL hslash port
  have hfull : (L.parts scheme).fullPath = L.path := by
    apply (fullPath_parts scheme L).resolve_right
    intro hlost
    have := congrArg List.length hlost
    rw [List.length_append, List.length_singleton, ← hpath] at this
    omega
  have hsame : settledPath (L.parts scheme).path = (L.parts scheme).path := by
    rw [← hfull] at hpath
    exact List.append_cancel_right hpath
  simp only [Parts.settle, hauthority, hsame]
  simp only [Layout.parts, hquery, hfragment]

/-- What follows the text of settled parts is not white space that was lost before. -/
theorem eq_nil_of_settle {cs more : List Char} {scheme : List Char}
    (hcs : ∀ c ∈ cs, isLineOrTab c = false) (hmore : ∀ c ∈ more, endsAuthority c = false)
    (hjoin : (((layout cs).parts scheme).settle port).join = webText scheme (cs ++ more)) :
    more = [] ∧ ((layout cs).parts scheme).settle port = (layout cs).parts scheme := by
  have hL := isWellFormed_layout cs
  obtain ⟨R, hR, -, htext, hquery, hfragment, hplace⟩ :=
    exists_layout_settle scheme hL (isLineOrTab_of_mem_text hcs) port
  have hlayout : layout (cs ++ more) = R := by
    rw [← layout_text hR]
    exact congrArg layout (webText_inj rfl (hjoin.symm.trans htext)).2
  have hlength (hne : (layout cs).path ≠ []) :
      (((layout cs).parts scheme).settle port).fullPath.length ≤ (layout cs).path.length := by
    refine Nat.le_trans (length_fullPath_settle_le scheme hL hne port) ?_
    rcases fullPath_parts scheme (layout cs) with hfull | hfull
    · rw [hfull]
    · rw [← hfull, List.length_append]
      omega
  have hshort {part : List Char} (hpart : decodeUnreserved part = part ++ more) : more = [] := by
    have := length_decodeUnreserved_le part
    rw [hpart, List.length_append] at this
    exact List.eq_nil_of_length_eq_zero (by omega)
  have hnone : more = [] := by
    have hparts := layout_append cs hmore
    rw [hlayout] at hparts
    rcases hparts with hlast | hlast | ⟨hne, -, hlast⟩ | ⟨hnil, hlast⟩
    · exact hshort (hfragment.symm.trans hlast)
    · exact hshort (hquery.symm.trans hlast)
    · have := hlength hne
      rcases hplace with ⟨-, hpath, -⟩ | ⟨-, hpath⟩
      · rw [← hpath, hlast, List.length_append] at this
        exact List.eq_nil_of_length_eq_zero (by omega)
      · rw [hpath, hlast] at this
        simp at this
        omega
    · rcases hplace with ⟨-, hpath, -⟩ | ⟨-, hpath⟩
      · rw [fullPath_settle_of_nil scheme hnil, hlast] at hpath
        cases hpath
      · rw [fullPath_settle_of_nil scheme hnil] at hpath
        cases hpath
  subst hnone
  rw [List.append_nil] at hlayout
  subst hlayout
  refine ⟨rfl, ?_⟩
  rcases hplace with ⟨hauthority, hpath, -⟩ | ⟨-, hpath⟩
  · exact settle_of_layout hL hauthority.symm hpath.symm hquery.symm hfragment.symm
  · by_cases hne : (layout cs).path = []
    · rw [fullPath_settle_of_nil scheme hne] at hpath
      cases hpath
    · have := hlength hne
      rw [hpath] at this
      simp at this
      omega

/-- The fixed points of taking normal forms, among web addresses. -/
theorem normalize_eq_self_iff {v : List Char} (hv : isWeb v = true) :
    normalize v = .ok v ↔ IsNormal v := by
  obtain ⟨name, start, more, hname, rfl, hblank, hstart, hnormal⟩ := exists_stripped hv
  rw [hnormal]
  constructor
  · intro hsame _
    obtain ⟨p, hsplit, ⟨hport, hstay⟩ | ⟨port, hport, hjoin⟩⟩ := normalizeWeb_eq_ok hsame
    · rw [← hstay] at hstart hsplit
      exact ⟨hstart, p, hsplit, .inl hport⟩
    · obtain ⟨-, -, rfl⟩ := (split_eq_ok hname).mp hsplit
      obtain ⟨R, -, hclean, htext, -⟩ := exists_layout_settle (name.map Char.toLower)
        (isWellFormed_layout _) (isLineOrTab_of_mem_layout start) port
      obtain ⟨hscheme, hsame⟩ := webText_inj (by simp) (hjoin.trans htext)
      rw [← hsame] at hclean
      have hchars : ∀ c ∈ start, isLineOrTab c = false := fun c hc =>
        hclean c (List.mem_append_left _ hc)
      rw [clean_eq_self hchars] at hport hjoin hsplit
      have hlower := congrArg (webText · (start ++ more)) hscheme
      have hmore : ∀ c ∈ more, endsAuthority c = false := fun c hc =>
        endsAuthority_eq_false (by decide) (hblank c hc)
      obtain ⟨rfl, hsettle⟩ := eq_nil_of_settle hchars hmore (hjoin.symm.trans hlower)
      rw [List.append_nil] at hstart hjoin ⊢
      have hpath := (path_parts (name.map Char.toLower) (isWellFormed_layout start)).imp_left
        And.left
      refine ⟨hstart, _, hsplit, .inr ⟨?_, (settle_eq_self_iff hport hpath).mp hsettle⟩⟩
      rw [← hsettle]
      exact hjoin.symm
  · intro hnormal
    obtain ⟨hstrip, p, hsplit, hport | ⟨hjoin, hsettled⟩⟩ := hnormal hv
    · rw [← hstart, hstrip]
      exact normalizeWeb_of_unreadable hsplit hport
    · rw [← hstart, hstrip]
      obtain ⟨-, -, hp⟩ := (split_eq_ok hname).mp hsplit
      rcases p.port.cases with hport | ⟨port, hport⟩
      · exact normalizeWeb_of_unreadable hsplit hport
      · have hpath : p.path = [] ∨ p.path.head? = some '/' := by
          rw [hp]
          exact (path_parts _ (isWellFormed_layout _)).imp_left And.left
        have hself := (settle_eq_self_iff hport hpath).mpr hsettled
        rw [normalizeWeb_of_split hsplit hport, hself, hjoin]

theorem isWeb_of_normalizeWeb {url v : List Char} (hurl : isWeb url = true)
    (hv : normalizeWeb url = .ok v) : isWeb v = true := by
  obtain ⟨name, rest, rfl, hname⟩ := exists_of_isWeb hurl
  obtain ⟨p, hsplit, ⟨-, rfl⟩ | ⟨port, -, rfl⟩⟩ := normalizeWeb_eq_ok hv
  · exact hurl
  · obtain ⟨-, -, rfl⟩ := (split_eq_ok hname).mp hsplit
    obtain ⟨R, -, -, htext, -⟩ := exists_layout_settle (name.map Char.toLower)
      (isWellFormed_layout _) (isLineOrTab_of_mem_layout rest) port
    rw [htext]
    exact isWeb_webText (toLower_toLower_mem hname) R.text

/-- A normal form of another scheme is kept. -/
theorem normalize_of_not_web {u v : List Char} (hu : normalize u = .ok v)
    (hv : isWeb v = false) : normalize v = .ok v := by
  rw [normalize, normalizeStripped] at hu
  split at hu
  · simp at hu
  · next hempty =>
      simp only at hu
      cases hnames : namesScheme (strip u) with
      | true =>
          rw [hnames, if_pos rfl] at hu
          cases hweb : isWeb (strip u) with
          | true =>
              rw [hweb, if_pos rfl] at hu
              have := isWeb_of_normalizeWeb hweb hu
              simp [hv] at this
          | false =>
              rw [hweb, if_neg Bool.false_ne_true] at hu
              obtain rfl := Except.ok.inj hu
              rw [normalize, strip_strip, normalizeStripped]
              simp only [hempty, hnames, hweb, Bool.false_eq_true, if_true, if_false]
      | false =>
          have hhttp : "http".toList.map Char.toLower ∈ webSchemes := by decide
          have hweb : isWeb ("http://".toList ++ strip u) = true := isWeb_webText hhttp _
          rw [hnames, if_neg Bool.false_ne_true, hweb, if_pos rfl] at hu
          have := isWeb_of_normalizeWeb hweb hu
          simp [hv] at this

theorem normalize_normalize_iff {u v : List Char} (hu : normalize u = .ok v) :
    normalize v = .ok v ↔ IsNormal v := by
  cases hv : isWeb v with
  | true => exact normalize_eq_self_iff hv
  | false =>
      apply iff_of_true (normalize_of_not_web hu hv)
      intro hweb
      simp [hv] at hweb

end LinkShelf.Url
