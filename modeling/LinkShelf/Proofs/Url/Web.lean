import LinkShelf.Proofs.Url.Layout

/-!
Web addresses taken apart and joined again. Main statements: a web address is a scheme in some case,
a colon with two slashes and a layout (`exists_of_isWeb`, `split_web`), and so is the text that the
parts of one are joined to (`exists_layout_join`).
-/

namespace LinkShelf.Url

open Text

/-- The schemes of web addresses. -/
def webSchemes : List (List Char) := ["http".toList, "https".toList]

/-- What follows the scheme of a web address is announced by a colon and two slashes. -/
def webText (scheme rest : List Char) : List Char := scheme ++ ':' :: '/' :: '/' :: rest

/-- A text without tabs and line ends. -/
def clean (cs : List Char) : List Char := cs.filter fun c => !isLineOrTab c

/-! ## Characters -/

section Characters

variable {p : Char → Bool} {c d : Char}

theorem endsAuthority_eq_false (hp : ∀ d ∈ "/?#".toList, p d = false) (hc : p c = true) :
    endsAuthority c = false := by
  rw [Bool.eq_false_iff]
  intro hends
  simp only [endsAuthority, Bool.or_eq_true, decide_eq_true_eq] at hends
  rcases hends with (rfl | rfl) | rfl <;> simp [hp] at hc

theorem isLineOrTab_eq_false (hp : ∀ d ∈ "\t\n\r".toList, p d = false) (hc : p c = true) :
    isLineOrTab c = false := by
  rw [Bool.eq_false_iff]
  intro hline
  simp only [isLineOrTab, Bool.or_eq_true, decide_eq_true_eq] at hline
  rcases hline with (rfl | rfl) | rfl <;> simp [hp] at hc

theorem isLineOrTab_of_mem_clean {cs : List Char} (hc : c ∈ clean cs) : isLineOrTab c = false := by
  simpa using (List.mem_filter.mp hc).2

theorem clean_eq_self {cs : List Char} (hcs : ∀ c ∈ cs, isLineOrTab c = false) : clean cs = cs := by
  rw [clean, List.filter_eq_self]
  intro c hc
  simp [hcs c hc]

theorem toLower_of_not_ascii (hc : 128 ≤ c.toNat) : c.toLower = c := by
  refine dif_neg ?_
  rintro ⟨-, hlast⟩
  have : c.toNat ≤ 90 := UInt32.le_iff_toNat_le.mp hlast
  omega

theorem forall_toLower {P : Char → Char → Prop} (hsame : ∀ c, P c c)
    (hascii : ∀ n < 128, P (Char.ofNat n) (Char.ofNat n).toLower) (c : Char) : P c c.toLower := by
  by_cases hc : c.toNat < 128
  · have hself := hascii c.toNat hc
    rwa [Char.ofNat_toNat] at hself
  · rw [toLower_of_not_ascii (by omega)]
    exact hsame c

theorem isAlpha_toLower (c : Char) : c.toLower.isAlpha = c.isAlpha := by
  refine forall_toLower (P := fun c d => d.isAlpha = c.isAlpha) (fun _ => rfl) ?_ c
  decide

theorem toLower_eq_self_of_not_isAlpha (hc : c.isAlpha = false) : c.toLower = c := by
  refine forall_toLower (P := fun c d => c.isAlpha = false → d = c) (fun _ _ => rfl) ?_ c hc
  decide

theorem eq_of_toLower_eq (hcd : c.toLower = d) (hd : d.isAlpha = false) : c = d := by
  have hc : c.isAlpha = false := by rw [← isAlpha_toLower, hcd, hd]
  rw [← hcd, toLower_eq_self_of_not_isAlpha hc]

theorem toNat_of_isAlpha (hc : c.isAlpha = true) : 65 ≤ c.toNat ∧ c.toNat ≤ 122 := by
  have hcases : (decide ('A'.val ≤ c.val ∧ c.val ≤ 'Z'.val) ||
      (decide ('a'.val ≤ c.val) && decide (c.val ≤ 'z'.val))) = true := hc
  simp only [Bool.or_eq_true, Bool.and_eq_true, decide_eq_true_eq, UInt32.le_iff_toNat_le] at hcases
  change (65 ≤ c.toNat ∧ c.toNat ≤ 90) ∨ (97 ≤ c.toNat ∧ c.toNat ≤ 122) at hcases
  omega

end Characters

/-! ## Schemes -/

theorem isAlpha_of_mem_webScheme {name : List Char} (hname : name.map Char.toLower ∈ webSchemes) :
    ∀ c ∈ name, c.isAlpha = true := by
  intro c hc
  have hmem : c.toLower ∈ name.map Char.toLower := List.mem_map_of_mem hc
  have hschemes : ∀ scheme ∈ webSchemes, ∀ d ∈ scheme, d.isAlpha = true := by decide
  rw [← isAlpha_toLower]
  exact hschemes _ hname _ hmem

/-- A web address starts with one of the two schemes in some case. -/
theorem exists_of_isWeb {url : List Char} (hurl : isWeb url = true) :
    ∃ name rest, url = webText name rest ∧ name.map Char.toLower ∈ webSchemes := by
  have hstart : ∀ scheme ∈ webSchemes, webText scheme [] <+: lower (url.take 8) →
      ∃ name rest, url = webText name rest ∧ name.map Char.toLower ∈ webSchemes := by
    intro scheme hscheme hprefix
    have hascii : ∀ c ∈ webText scheme [], c.toNat < 128 ∧ c ≠ 'i' ∧ c ≠ 'k' := by
      have hall : ∀ scheme ∈ webSchemes, ∀ c ∈ webText scheme [],
          c.toNat < 128 ∧ c ≠ 'i' ∧ c ≠ 'k' := by decide
      exact hall scheme hscheme
    obtain ⟨a, rest, htake, hlower, -⟩ := exists_of_prefix_lowerAfter hprefix hascii
    obtain ⟨name, mark, rfl, hname, hmark⟩ := List.map_eq_append_iff.mp hlower
    obtain ⟨c, slashes, rfl, hc, hslashes⟩ := List.map_eq_cons_iff.mp hmark
    obtain ⟨d, tail, rfl, hd, htail⟩ := List.map_eq_cons_iff.mp hslashes
    obtain ⟨e, last, rfl, he, hlast⟩ := List.map_eq_cons_iff.mp htail
    obtain rfl := List.map_eq_nil_iff.mp hlast
    obtain rfl := eq_of_toLower_eq hc (by decide)
    obtain rfl := eq_of_toLower_eq hd (by decide)
    obtain rfl := eq_of_toLower_eq he (by decide)
    refine ⟨name, rest ++ url.drop 8, ?_, hname ▸ hscheme⟩
    calc url = url.take 8 ++ url.drop 8 := (List.take_append_drop 8 url).symm
      _ = webText name (rest ++ url.drop 8) := by rw [htake]; simp [webText]
  rw [isWeb, Bool.or_eq_true, List.isPrefixOf_iff_prefix, List.isPrefixOf_iff_prefix] at hurl
  rcases hurl with hurl | hurl
  · exact hstart "http".toList (by decide) hurl
  · exact hstart "https".toList (by decide) hurl

theorem length_of_mem_webScheme {name : List Char} (hname : name.map Char.toLower ∈ webSchemes) :
    name.length = 4 ∨ name.length = 5 := by
  have hlengths : ∀ scheme ∈ webSchemes, scheme.length = 4 ∨ scheme.length = 5 := by decide
  simpa using hlengths _ hname

theorem isWeb_webText {name : List Char} (hname : name.map Char.toLower ∈ webSchemes)
    (rest : List Char) : isWeb (webText name rest) = true := by
  have hlength : (webText name []).length ≤ 8 := by
    rcases length_of_mem_webScheme hname with h | h <;> simp [webText, h]
  have htake : (webText name rest).take 8 =
      webText name [] ++ rest.take (8 - (webText name []).length) := by
    have happend : webText name rest = webText name [] ++ rest := by simp [webText]
    rw [happend, List.take_append, List.take_of_length_le hlength]
  have hascii : ∀ c ∈ webText name [], c.toNat < 128 := by
    intro c hc
    simp only [webText, List.mem_append, List.mem_cons, List.not_mem_nil, or_false] at hc
    rcases hc with hc | rfl | rfl | rfl
    · have := toNat_of_isAlpha (isAlpha_of_mem_webScheme hname c hc)
      omega
    · decide
    · decide
    · decide
  have hlower : webText (name.map Char.toLower) [] <+: lower ((webText name rest).take 8) := by
    rw [htake, lower, lowerAfter_ascii hascii]
    have hmap : (webText name []).map Char.toLower = webText (name.map Char.toLower) [] := by
      simp only [webText, List.map_append, List.map_cons, List.map_nil]
      rfl
    rw [hmap]
    exact List.prefix_append _ _
  rw [isWeb, Bool.or_eq_true, List.isPrefixOf_iff_prefix, List.isPrefixOf_iff_prefix]
  have hcases : name.map Char.toLower = "http".toList ∨ name.map Char.toLower = "https".toList := by
    simpa [webSchemes] using hname
  rcases hcases with h | h
  · rw [h] at hlower
    exact .inl hlower
  · rw [h] at hlower
    exact .inr hlower

theorem scheme?_web {name : List Char} (hname : name.map Char.toLower ∈ webSchemes)
    (rest : List Char) :
    scheme? (name ++ ':' :: rest) = some (name.map Char.toLower, rest) := by
  have halpha := isAlpha_of_mem_webScheme hname
  have hcolon : ':' ∉ name := fun hmem => absurd (halpha _ hmem) (by decide)
  have hcut : cutFirst (· == ':') (name ++ ':' :: rest) = some (name, rest) :=
    cutFirst_append rfl (beq_of_not_mem hcolon)
  have hchars : name.all isSchemeChar = true := by
    rw [List.all_eq_true]
    intro c hc
    simp [isSchemeChar, Char.isAlphanum, halpha c hc]
  have hlower : lower name = name.map Char.toLower :=
    lower_ascii fun c hc => by
      have := toNat_of_isAlpha (halpha c hc)
      omega
  rw [scheme?, hcut]
  cases name with
  | nil => simp [webSchemes] at hname
  | cons c cs => simp only [halpha c (by simp), hchars, hlower, Bool.and_self, if_true]

theorem clean_webText {name : List Char} (hname : name.map Char.toLower ∈ webSchemes)
    (rest : List Char) :
    ((webText name rest).dropWhile isControlOrSpace).filter (fun c => !isLineOrTab c) =
      webText name (clean rest) := by
  have halpha := isAlpha_of_mem_webScheme hname
  have hfirst : (webText name rest).dropWhile isControlOrSpace = webText name rest := by
    cases name with
    | nil => simp [webSchemes] at hname
    | cons c cs =>
        have hc := toNat_of_isAlpha (halpha c (by simp))
        have hcontrol : isControlOrSpace c = false := by
          rw [isControlOrSpace, decide_eq_false_iff_not]
          omega
        rw [webText, List.cons_append, List.dropWhile_cons, hcontrol]
        rfl
  have hletters : name.filter (fun c => !isLineOrTab c) = name :=
    clean_eq_self fun c hc => isLineOrTab_eq_false (by decide) (halpha c hc)
  rw [hfirst, webText, List.filter_append, hletters]
  rfl

theorem webText_inj {scheme other rest more : List Char} (hlength : scheme.length = other.length)
    (h : webText scheme rest = webText other more) : scheme = other ∧ rest = more := by
  obtain ⟨hscheme, hrest⟩ := List.append_inj h hlength
  simp only [List.cons.injEq, true_and] at hrest
  exact ⟨hscheme, hrest⟩

/-- A web address is taken apart by its layout. -/
theorem split_web {name : List Char} (hname : name.map Char.toLower ∈ webSchemes)
    (rest : List Char) :
    split (webText name rest) = (do
      checkBrackets (layout (clean rest)).authority
      checkDelimiters (layout (clean rest)).authority
      return (layout (clean rest)).parts (name.map Char.toLower)) := by
  have hparams : schemesWithParams.contains (name.map Char.toLower) = true := by
    have hall : ∀ scheme ∈ webSchemes, schemesWithParams.contains scheme = true := by decide
    exact hall _ hname
  have hscheme : scheme? (webText name (clean rest)) =
      some (name.map Char.toLower, '/' :: '/' :: clean rest) := scheme?_web hname _
  rw [split, clean_webText hname, hscheme]
  simp only [Option.getD_some, cutAuthority, layout, Layout.parts, hparams, if_true]

/-! ## Joining -/

/-- The path with its parameters. -/
def Parts.fullPath (p : Parts) : List Char := p.path ++ delimited ';' p.params

/-- The layout of the parts of a web address. -/
def Parts.layout (p : Parts) : Layout := ⟨p.authority, p.fullPath, p.query, p.fragment⟩

theorem cutParams_cases (path : List Char) :
    cutParams path = (path, []) ∨
      ∃ before params, path = before ++ ';' :: params ∧ cutParams path = (before, params) ∧
        (path.head? = some '/' → before.head? = some '/') := by
  rw [cutParams]
  cases hslash : cutLast (· == '/') path with
  | none =>
      simp only [List.nil_append]
      cases hmark : cutFirst (· == ';') path with
      | none => exact .inl rfl
      | some pair =>
          obtain ⟨before, params⟩ := pair
          obtain ⟨c, hc, hpath, -⟩ := cutFirst_eq_some hmark
          obtain rfl : c = ';' := by simpa using hc
          refine .inr ⟨before, params, hpath, rfl, fun hhead => ?_⟩
          have hnone := cutLast_eq_none.mp hslash '/' (List.mem_of_mem_head? (by simp [hhead]))
          exact absurd hnone (by decide)
  | some pair =>
      obtain ⟨before, last⟩ := pair
      obtain ⟨c, hc, hpath, -⟩ := cutLast_eq_some hslash
      obtain rfl : c = '/' := by simpa using hc
      simp only
      cases hmark : cutFirst (· == ';') last with
      | none => exact .inl rfl
      | some pair =>
          obtain ⟨front, params⟩ := pair
          obtain ⟨c, hc, rfl, -⟩ := cutFirst_eq_some hmark
          obtain rfl : c = ';' := by simpa using hc
          refine .inr ⟨before ++ ['/'] ++ front, params, by simp [hpath], rfl, fun hhead => ?_⟩
          rw [hpath] at hhead
          cases before with
          | nil => rfl
          | cons d before => simpa using hhead

/-- A text in which nothing ends a path is laid out well as an authority and a path. -/
theorem isWellFormed_cut {cs query fragment : List Char} (hcs : ∀ c ∈ cs, c ≠ '?' ∧ c ≠ '#')
    (hquery : '#' ∉ query) :
    Layout.IsWellFormed ⟨cs.takeWhile fun c => !endsAuthority c,
      cs.dropWhile fun c => !endsAuthority c, query, fragment⟩ := by
  refine ⟨?_, ?_, ?_, hquery⟩
  · intro c hc
    simpa using List.mem_takeWhile_imp hc
  · cases hrest : cs.dropWhile fun c => !endsAuthority c with
    | nil => exact .inl rfl
    | cons c tail =>
        right
        have hends : (!endsAuthority c) = false := head?_dropWhile _ cs (by rw [hrest]; rfl)
        have hc := hcs c ((List.dropWhile_sublist _).subset (by rw [hrest]; simp))
        simp only [endsAuthority, Bool.not_eq_false', Bool.or_eq_true, decide_eq_true_eq] at hends
        rcases hends with (rfl | rfl) | rfl
        · rfl
        · exact absurd rfl hc.1
        · exact absurd rfl hc.2
  · intro c hc
    exact hcs c ((List.dropWhile_sublist _).subset hc)

/-- What is joined is laid out, with the parts in their places, unless there is no authority and the
path begins with two slashes: then an authority is made of the path. -/
theorem exists_layout_join {p : Parts} (hp : p.layout.IsWellFormed) {rest : List Char}
    (hpath : p.path = '/' :: rest) :
    (p.join = webText p.scheme p.layout.text ∧
        (p.authority = [] → ¬ ['/', '/'] <+: p.fullPath)) ∨
      ∃ L : Layout, p.authority = [] ∧ p.fullPath = '/' :: '/' :: (L.authority ++ L.path) ∧
        L.query = p.query ∧ L.fragment = p.fragment ∧ L.IsWellFormed ∧
        p.join = webText p.scheme L.text := by
  have hfull : (if p.params.isEmpty then p.path else p.path ++ ';' :: p.params) = p.fullPath := by
    rw [Parts.fullPath, delimited]
    split <;> simp
  have hslash : p.fullPath.head? = some '/' := by
    rw [Parts.fullPath, hpath]
    rfl
  have hjoin : p.join = p.scheme ++ ':' ::
      (if p.authority.isEmpty && ['/', '/'].isPrefixOf p.fullPath then p.fullPath
        else '/' :: '/' :: p.authority ++ p.fullPath) ++
      delimited '?' p.query ++ delimited '#' p.fragment := by
    simp only [Parts.join, hfull, hslash, decide_true, Bool.or_true, if_true]
    rfl
  cases hplace : p.authority.isEmpty && ['/', '/'].isPrefixOf p.fullPath with
  | false =>
      left
      constructor
      · rw [hjoin, hplace]
        simp [webText, Layout.text, Parts.layout]
      · intro hempty hprefix
        rw [hempty, List.isPrefixOf_iff_prefix.mpr hprefix] at hplace
        cases hplace
  | true =>
      right
      rw [Bool.and_eq_true, List.isEmpty_iff, List.isPrefixOf_iff_prefix] at hplace
      obtain ⟨hauthority, more, hmore⟩ := hplace
      have hfullPath : p.fullPath = '/' :: '/' :: more := hmore.symm
      have hchars : ∀ c ∈ more, c ≠ '?' ∧ c ≠ '#' := by
        intro c hc
        apply hp.pathChars c
        change c ∈ p.fullPath
        simp [hfullPath, hc]
      refine ⟨⟨more.takeWhile fun c => !endsAuthority c, more.dropWhile fun c => !endsAuthority c,
        p.query, p.fragment⟩, hauthority, ?_, rfl, rfl, isWellFormed_cut hchars hp.query, ?_⟩
      · simp [hfullPath]
      · rw [hjoin]
        simp [hauthority, hfullPath, webText, Layout.text]

end LinkShelf.Url
