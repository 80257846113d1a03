import LinkShelf.Proofs.Text.Blank
import LinkShelf.Proofs.Url.Authority
import LinkShelf.Proofs.Url.DotSegments
import LinkShelf.Proofs.Url.Web

/-!
Parts of a web address after settling: they are laid out well again, and what they are written with
comes from the address or needs no care.
-/

namespace LinkShelf.Url

open Text

variable {scheme : List Char} {L : Layout} {port : Option Nat} {c : Char}

theorem plain_of_isUnreserved (hc : isUnreserved c = true) :
    isLineOrTab c = false ∧ endsAuthority c = false :=
  ⟨isLineOrTab_eq_false (by decide) hc, endsAuthority_eq_false (by decide) hc⟩

theorem plain_of_isLowered (hc : isLowered c = true) :
    isLineOrTab c = false ∧ endsAuthority c = false :=
  ⟨isLineOrTab_eq_false (by decide) hc, endsAuthority_eq_false (by decide) hc⟩

theorem isUnreserved_of_isDigit (hc : c.isDigit = true) : isUnreserved c = true := by
  simp [isUnreserved, Char.isAlphanum, hc]

/-! ## The parts of a layout -/

theorem path_parts (scheme : List Char) (hL : L.IsWellFormed) :
    (L.parts scheme).path = [] ∧ L.path = [] ∨ (L.parts scheme).path.head? = some '/' := by
  rcases hL.path with hpath | hpath
  · left
    simp [Layout.parts, hpath, cutParams, cutLast, cutFirst]
  · right
    rcases cutParams_cases L.path with hcut | ⟨before, params, -, hcut, hhead⟩
    · simp [Layout.parts, hcut, hpath]
    · simp [Layout.parts, hcut, hhead hpath]

/-- A semicolon with nothing after it is lost. -/
theorem fullPath_parts (scheme : List Char) (L : Layout) :
    (L.parts scheme).fullPath = L.path ∨ (L.parts scheme).fullPath ++ [';'] = L.path := by
  rcases cutParams_cases L.path with hcut | ⟨before, params, hpath, hcut, -⟩
  · left
    simp [Parts.fullPath, Layout.parts, hcut, delimited]
  · simp only [Parts.fullPath, Layout.parts, hcut]
    rw [hpath]
    cases params with
    | nil => right; simp [delimited]
    | cons c params => left; simp [delimited]

theorem mem_path_of_parts (hc : c ∈ (L.parts scheme).path ∨ c ∈ (L.parts scheme).params) :
    c ∈ L.path := by
  rcases cutParams_cases L.path with hcut | ⟨before, params, hpath, hcut, -⟩
  · simpa [Layout.parts, hcut] using hc
  · rw [hpath]
    simp only [Layout.parts, hcut] at hc
    rcases hc with hc | hc <;> simp [hc]

/-! ## Settled parts -/

theorem exists_settledPath {path : List Char} (hpath : path = [] ∨ path.head? = some '/') :
    ∃ rest, settledPath path = '/' :: rest ∧ rest.length ≤ path.tail.length ∧
      ∀ c ∈ rest, c = '/' ∨ c ∈ path ∨ isUnreserved c = true := by
  rcases hpath with rfl | hpath
  · exact ⟨[], settledPath_nil, by simp, by simp⟩
  · obtain ⟨rest, rfl⟩ : ∃ rest, path = '/' :: rest := by
      cases path with
      | nil => simp at hpath
      | cons c rest =>
          obtain rfl : c = '/' := by simpa using hpath
          exact ⟨rest, rfl⟩
    have hlength := length_settledPath_slash_le rest
    have hmem : ∀ c ∈ settledPath ('/' :: rest), c = '/' ∨ c ∈ rest ∨ isUnreserved c = true :=
      fun c hc => mem_settledPath_slash hc
    rw [settledPath_slash] at hlength hmem ⊢
    refine ⟨_, rfl, by simpa using hlength, fun c hc => ?_⟩
    exact (hmem c (by simp [hc])).imp_right fun h => h.imp_left fun h => by simp [h]

/-- An empty path is settled to a slash. -/
theorem fullPath_settle_of_nil (scheme : List Char) (hpath : L.path = []) (port : Option Nat) :
    ((L.parts scheme).settle port).fullPath = ['/'] := by
  simp [Parts.fullPath, Parts.settle, Layout.parts, hpath, cutParams, cutLast, cutFirst,
    settledPath_nil, delimited]

/-- A settled path is rooted, and it is written with what the path is written with and with
characters that need no escape. -/
theorem exists_fullPath_settle (scheme : List Char) (hL : L.IsWellFormed) (port : Option Nat) :
    ∃ rest, ((L.parts scheme).settle port).path = '/' :: rest ∧
      ∀ c ∈ ((L.parts scheme).settle port).fullPath,
        c = '/' ∨ c = ';' ∨ c ∈ L.path ∨ isUnreserved c = true := by
  have hparts : (L.parts scheme).path = [] ∨ (L.parts scheme).path.head? = some '/' :=
    (path_parts scheme hL).imp_left And.left
  obtain ⟨rest, hrest, -, hchars⟩ := exists_settledPath hparts
  refine ⟨rest, hrest, ?_⟩
  intro c hc
  change c ∈ settledPath (L.parts scheme).path ++ delimited ';' (L.parts scheme).params at hc
  rw [hrest, List.cons_append, List.mem_cons, List.mem_append] at hc
  rcases hc with rfl | hc | hc
  · exact .inl rfl
  · rcases hchars c hc with rfl | hc | hc
    · exact .inl rfl
    · exact .inr (.inr (.inl (mem_path_of_parts (.inl hc))))
    · exact .inr (.inr (.inr hc))
  · rcases mem_delimited hc with rfl | hc
    · exact .inr (.inl rfl)
    · exact .inr (.inr (.inl (mem_path_of_parts (.inr hc))))

theorem isWellFormed_settle (hL : L.IsWellFormed) (port : Option Nat) :
    ((L.parts scheme).settle port).layout.IsWellFormed := by
  obtain ⟨rest, hrest, hchars⟩ := exists_fullPath_settle scheme hL port
  constructor
  · intro c hc
    rcases mem_settledAuthority hc with hc | hc | hc | rfl
    · exact hL.authority c hc
    · exact (plain_of_isLowered hc).2
    · exact (plain_of_isUnreserved (isUnreserved_of_isDigit hc)).2
    · rfl
  · right
    simp [Parts.layout, Parts.fullPath, hrest]
  · intro c hc
    rcases hchars c hc with rfl | rfl | hc | hc
    · decide
    · decide
    · exact hL.pathChars c hc
    · constructor
      · rintro rfl
        exact absurd hc (by decide)
      · rintro rfl
        exact absurd hc (by decide)
  · intro hmem
    rcases mem_decodeUnreserved hmem with hmem | hmem
    · exact hL.query hmem
    · exact absurd hmem (by decide)

theorem length_fullPath_settle_le (scheme : List Char) (hL : L.IsWellFormed) (hpath : L.path ≠ [])
    (port : Option Nat) :
    ((L.parts scheme).settle port).fullPath.length ≤ (L.parts scheme).fullPath.length := by
  have hslash : (L.parts scheme).path.head? = some '/' :=
    (path_parts scheme hL).resolve_left fun h => hpath h.2
  obtain ⟨rest, hrest, hlength, -⟩ := exists_settledPath (.inr hslash)
  obtain ⟨tail, htail⟩ := List.head?_eq_some_iff.mp hslash
  change (settledPath (L.parts scheme).path ++ delimited ';' (L.parts scheme).params).length ≤ _
  rw [Parts.fullPath, hrest]
  simp only [htail, List.tail_cons] at hlength
  simp only [htail, List.length_append, List.length_cons]
  omega

theorem forall_mem_delimited {P : Char → Prop} {part : List Char} (hc : P c) :
    (∀ d ∈ delimited c part, P d) ↔ ∀ d ∈ part, P d := by
  rw [delimited]
  split
  · next hempty => rw [List.isEmpty_iff.mp hempty]
  · rw [List.forall_mem_cons]
    exact and_iff_right hc

theorem forall_mem_text {P : Char → Prop} (hmark : P '?') (hnumber : P '#') :
    (∀ c ∈ L.text, P c) ↔ (∀ c ∈ L.authority, P c) ∧ (∀ c ∈ L.path, P c) ∧
      (∀ c ∈ L.query, P c) ∧ ∀ c ∈ L.fragment, P c := by
  simp only [Layout.text, List.forall_mem_append, forall_mem_delimited hmark,
    forall_mem_delimited hnumber, and_assoc]

theorem isLineOrTab_of_mem_decodeUnreserved {cs : List Char}
    (hcs : ∀ c ∈ cs, isLineOrTab c = false) : ∀ c ∈ decodeUnreserved cs, isLineOrTab c = false := by
  intro c hc
  rcases mem_decodeUnreserved hc with hc | hc
  · exact hcs c hc
  · exact (plain_of_isUnreserved hc).1

/-- Settled parts are joined to a text that is laid out well. The parts are in their places, unless
there is no authority and the path begins with two slashes. -/
theorem exists_layout_settle (scheme : List Char) (hL : L.IsWellFormed)
    (hclean : ∀ c ∈ L.text, isLineOrTab c = false) (port : Option Nat) :
    ∃ R : Layout, R.IsWellFormed ∧ (∀ c ∈ R.text, isLineOrTab c = false) ∧
      ((L.parts scheme).settle port).join = webText scheme R.text ∧
      R.query = decodeUnreserved L.query ∧ R.fragment = decodeUnreserved L.fragment ∧
      ((R.authority = settledAuthority (L.parts scheme) port ∧
          R.path = ((L.parts scheme).settle port).fullPath ∧
          (settledAuthority (L.parts scheme) port = [] →
            ¬ ['/', '/'] <+: ((L.parts scheme).settle port).fullPath)) ∨
        (settledAuthority (L.parts scheme) port = [] ∧
          ((L.parts scheme).settle port).fullPath = '/' :: '/' :: (R.authority ++ R.path))) := by
  have hplain {L : Layout} := forall_mem_text (P := fun c => isLineOrTab c = false) (L := L) rfl rfl
  obtain ⟨hauthority, hpath, hquery, hfragment⟩ := hplain.mp hclean
  obtain ⟨rest, hrest, hchars⟩ := exists_fullPath_settle scheme hL port
  have hplace : ∀ c ∈ settledAuthority (L.parts scheme) port, isLineOrTab c = false := by
    intro c hc
    rcases mem_settledAuthority hc with hc | hc | hc | rfl
    · exact hauthority c hc
    · exact (plain_of_isLowered hc).1
    · exact (plain_of_isUnreserved (isUnreserved_of_isDigit hc)).1
    · rfl
  have hfullPath : ∀ c ∈ ((L.parts scheme).settle port).fullPath, isLineOrTab c = false := by
    intro c hc
    rcases hchars c hc with rfl | rfl | hc | hc
    · rfl
    · rfl
    · exact hpath c hc
    · exact (plain_of_isUnreserved hc).1
  have hdecodedQuery := isLineOrTab_of_mem_decodeUnreserved hquery
  have hdecodedFragment := isLineOrTab_of_mem_decodeUnreserved hfragment
  rcases exists_layout_join (isWellFormed_settle hL port) hrest with ⟨hjoin, hslashes⟩ |
    ⟨R, hempty, hfull, hq, hf, hR, hjoin⟩
  · refine ⟨((L.parts scheme).settle port).layout, isWellFormed_settle hL port, ?_, hjoin, rfl, rfl,
      .inl ⟨rfl, rfl, hslashes⟩⟩
    exact hplain.mpr ⟨hplace, hfullPath, hdecodedQuery, hdecodedFragment⟩
  · refine ⟨R, hR, hplain.mpr ⟨?_, ?_, ?_, ?_⟩, hjoin, hq, hf, .inr ⟨hempty, hfull⟩⟩
    · intro c hc
      exact hfullPath c (by simp [hfull, hc])
    · intro c hc
      exact hfullPath c (by simp [hfull, hc])
    · rw [hq]
      exact hdecodedQuery
    · rw [hf]
      exact hdecodedFragment

theorem isLineOrTab_of_mem_text {cs : List Char} (hcs : ∀ c ∈ cs, isLineOrTab c = false) :
    ∀ c ∈ (layout cs).text, isLineOrTab c = false := by
  apply (forall_mem_text (P := fun c => isLineOrTab c = false) rfl rfl).mpr
  refine ⟨?_, ?_, ?_, ?_⟩
  · exact fun c hc => hcs c (mem_layout (.inl hc))
  · exact fun c hc => hcs c (mem_layout (.inr (.inl hc)))
  · exact fun c hc => hcs c (mem_layout (.inr (.inr (.inl hc))))
  · exact fun c hc => hcs c (mem_layout (.inr (.inr (.inr hc))))

theorem isLineOrTab_of_mem_layout (cs : List Char) :
    ∀ c ∈ (layout (clean cs)).text, isLineOrTab c = false :=
  isLineOrTab_of_mem_text fun _ hc => isLineOrTab_of_mem_clean hc

/-! ## Normal forms of web addresses -/

theorem normalizeWeb_eq_ok {url v : List Char} (hv : normalizeWeb url = .ok v) :
    ∃ p, split url = .ok p ∧ ((p.port = .unreadable ∧ v = url) ∨
      ∃ port, p.port = .of port ∧ v = (p.settle port).join) := by
  rw [normalizeWeb] at hv
  obtain ⟨p, hp, hv⟩ := bind_eq_ok.mp hv
  refine ⟨p, hp, ?_⟩
  cases hport : p.port with
  | missing =>
      rw [hport] at hv
      exact .inr ⟨none, rfl, (Except.ok.inj hv).symm⟩
  | number n =>
      rw [hport] at hv
      exact .inr ⟨some n, rfl, (Except.ok.inj hv).symm⟩
  | unreadable =>
      rw [hport] at hv
      exact .inl ⟨rfl, (Except.ok.inj hv).symm⟩

theorem normalizeWeb_of_split {url : List Char} {p : Parts} (hp : split url = .ok p)
    (hport : p.port = .of port) : normalizeWeb url = .ok (p.settle port).join := by
  rw [normalizeWeb, hp, ok_bind, hport]
  cases port <;> rfl

theorem normalizeWeb_of_unreadable {url : List Char} {p : Parts} (hp : split url = .ok p)
    (hport : p.port = .unreadable) : normalizeWeb url = .ok url := by
  rw [normalizeWeb, hp, ok_bind, hport]
  rfl

theorem map_toLower_of_mem_webSchemes {scheme : List Char} (hscheme : scheme ∈ webSchemes) :
    scheme.map Char.toLower = scheme := by
  revert scheme
  decide

theorem toLower_toLower_mem {name : List Char} (hname : name.map Char.toLower ∈ webSchemes) :
    (name.map Char.toLower).map Char.toLower ∈ webSchemes := by
  rwa [map_toLower_of_mem_webSchemes hname]

theorem split_eq_ok {name rest : List Char} {p : Parts}
    (hname : name.map Char.toLower ∈ webSchemes) :
    split (webText name rest) = .ok p ↔ checkBrackets (layout (clean rest)).authority = .ok () ∧
      checkDelimiters (layout (clean rest)).authority = .ok () ∧
      p = (layout (clean rest)).parts (name.map Char.toLower) := by
  rw [split_web hname]
  constructor
  · intro hp
    obtain ⟨_, hbrackets, hp⟩ := bind_eq_ok.mp hp
    obtain ⟨_, hdelimiters, hp⟩ := bind_eq_ok.mp hp
    exact ⟨hbrackets, hdelimiters, (Except.ok.inj hp).symm⟩
  · rintro ⟨hbrackets, hdelimiters, rfl⟩
    rw [hbrackets, hdelimiters]
    rfl

/-- A web address that is laid out well is taken apart as it is laid out. -/
theorem split_text_eq_ok {p : Parts} (hL : L.IsWellFormed)
    (hclean : ∀ c ∈ L.text, isLineOrTab c = false) (hscheme : scheme ∈ webSchemes) :
    split (webText scheme L.text) = .ok p ↔ checkBrackets L.authority = .ok () ∧
      checkDelimiters L.authority = .ok () ∧ p = L.parts scheme := by
  have hname := map_toLower_of_mem_webSchemes hscheme
  rw [split_eq_ok (by rwa [hname]), hname, clean_eq_self hclean, layout_text hL]

theorem exists_letter {name : List Char} (hname : name.map Char.toLower ∈ webSchemes) :
    ∃ c cs, name = c :: cs ∧ isBlank c = false := by
  obtain ⟨c, cs, rfl⟩ : ∃ c cs, name = c :: cs := by
    cases name with
    | nil => simp [webSchemes] at hname
    | cons c cs => exact ⟨c, cs, rfl⟩
  have hc := toNat_of_isAlpha (isAlpha_of_mem_webScheme hname c (by simp))
  refine ⟨c, cs, rfl, ?_⟩
  rw [Bool.eq_false_iff]
  intro hblank
  simp only [isBlank, Bool.or_eq_true, Bool.and_eq_true, decide_eq_true_eq, beq_iff_eq] at hblank
  omega

/-- White space around a web address is white space after it. -/
theorem strip_webText {name : List Char} (hname : name.map Char.toLower ∈ webSchemes)
    (rest : List Char) : strip (webText name rest) = webText name (stripEnd rest) := by
  obtain ⟨c, cs, rfl, hc⟩ := exists_letter hname
  have hstart : (webText (c :: cs) rest).dropWhile isBlank = webText (c :: cs) rest := by
    rw [webText, List.cons_append, List.dropWhile_cons, hc]
    rfl
  have hfront : webText (c :: cs) rest = (c :: cs ++ [':', '/']) ++ '/' :: rest := by
    simp [webText]
  rw [strip, hstart, stripEnd, hfront, dropEndWhile_append (by decide)]
  simp [webText, stripEnd]

/-- A web address without white space around it is settled as one. -/
theorem normalizeStripped_webText {name : List Char} (hname : name.map Char.toLower ∈ webSchemes)
    (rest : List Char) :
    normalizeStripped (webText name rest) = normalizeWeb (webText name rest) := by
  have hempty : (webText name rest).isEmpty = false := by simp [webText]
  have hnames : namesScheme (webText name rest) = true := by
    have hmark : "://".toList <+: ':' :: '/' :: '/' :: rest := ⟨rest, rfl⟩
    rw [namesScheme, webText, contains_append hmark, Bool.true_or]
  simp only [normalizeStripped, hempty, hnames, isWeb_webText hname, if_true, Bool.false_eq_true,
    if_false]

theorem normalize_webText {name : List Char} (hname : name.map Char.toLower ∈ webSchemes)
    (rest : List Char) :
    normalize (webText name rest) = normalizeWeb (webText name (stripEnd rest)) := by
  rw [normalize, strip_webText hname, normalizeStripped_webText hname]

/-- The normal form of a web address is taken without the white space after it. -/
theorem exists_stripped {url : List Char} (hurl : isWeb url = true) :
    ∃ name start more, name.map Char.toLower ∈ webSchemes ∧ url = webText name (start ++ more) ∧
      (∀ c ∈ more, isBlank c = true) ∧ strip url = webText name start ∧
      normalize url = normalizeWeb (webText name start) := by
  obtain ⟨name, rest, rfl, hname⟩ := exists_of_isWeb hurl
  obtain ⟨more, hrest, hblank⟩ := exists_dropEndWhile isBlank rest
  exact ⟨name, stripEnd rest, more, hname, congrArg _ hrest, hblank, strip_webText hname rest,
    normalize_webText hname rest⟩

end LinkShelf.Url
