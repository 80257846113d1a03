import LinkShelf.Proofs.Url.Server

/-!
The server that the normal form of a web address names. Main statement: it is the one that the
address names exactly if the authority survives, and with it the two slashes in front of it
(`server_normalize_iff`).
-/

namespace LinkShelf.Url

open Text

namespace Parts

/-- Whether the slashes in front of the authority are left out, since nothing stands in it and the
path has two slashes of its own. -/
def LosesSlashes (p : Parts) (port : Option Nat) : Prop :=
  settledAuthority p port = [] ∧ ['/', '/'] <+: (p.settle port).fullPath

/-- The authority that the path is taken for without those slashes. -/
def foundAuthority (p : Parts) (port : Option Nat) : List Char :=
  ((p.settle port).fullPath.drop 2).takeWhile (· ≠ '/')

/-- Whether settled parts name the server of the parts: their authority survives, or the one that is
taken from the path is one of the same server. -/
structure KeepsServer (p : Parts) (port : Option Nat) : Prop where
  lasting : ¬ p.LosesSlashes port → p.HasLastingServer
  found : p.LosesSlashes port → checkBrackets (p.foundAuthority port) = .ok () ∧
    checkDelimiters (p.foundAuthority port) = .ok () ∧
    server { p with authority := p.foundAuthority port } = p.server

end Parts

/-- Whether the normal form of an address with some parts names the same server: white space after
the address is none of the authority, and the settled parts name the server. -/
def KeepsServer (url : List Char) (p : Parts) : Prop :=
  ∃ s port, split (strip url) = .ok s ∧ s.port = .of port ∧ s.authority = p.authority ∧
    s.KeepsServer port

section Settled

variable {L : Layout} {scheme : List Char} {port : Option Nat}

theorem not_standsForDelimiter_of_isLowered {c : Char} (hc : isLowered c = true) :
    standsForDelimiter c = false := by
  rw [Bool.eq_false_iff]
  intro hstands
  have hcodes : ∀ n ∈ [0x2047, 0x2048, 0x2049, 0x2100, 0x2101, 0x2105, 0x2106, 0x2A74, 0xFE13,
      0xFE16, 0xFE55, 0xFE56, 0xFE5F, 0xFE6B, 0xFF03, 0xFF0F, 0xFF1A, 0xFF1F, 0xFF20],
      isLoweredCode n = false := by
    decide
  have hfalse := hcodes c.toNat (List.contains_iff_mem.mp hstands)
  rw [isLowered] at hc
  simp [hfalse] at hc

theorem checkDelimiters_settled {p : Parts} (hp : checkDelimiters p.authority = .ok ()) :
    checkDelimiters (settledAuthority p port) = .ok () := by
  have hall : ∀ c ∈ p.authority, standsForDelimiter c = false := by
    rw [checkDelimiters] at hp
    split at hp
    · cases hp
    · next hnone => simpa using hnone
  have hnone : (settledAuthority p port).any standsForDelimiter = false := by
    rw [List.any_eq_false]
    intro c hc
    rw [Bool.not_eq_true]
    rcases mem_settledAuthority hc with hc | hc | hc | rfl
    · exact hall c hc
    · exact not_standsForDelimiter_of_isLowered hc
    · rw [Bool.eq_false_iff]
      intro hstands
      have hrange : 48 ≤ c.toNat ∧ c.toNat ≤ 57 := by
        simpa [Char.isDigit, UInt32.le_iff_toNat_le] using hc
      simp only [standsForDelimiter, List.contains_eq_mem, decide_eq_true_eq, List.mem_cons,
        List.not_mem_nil, or_false] at hstands
      omega
    · rfl
  rw [checkDelimiters, hnone, if_neg Bool.false_ne_true]

theorem takeWhile_authority {R : Layout} (hR : R.IsWellFormed) :
    (R.authority ++ R.path).takeWhile (· ≠ '/') = R.authority := by
  have hauthority : ∀ c ∈ R.authority, decide (c ≠ '/') = true := by
    intro c hc
    rw [decide_eq_true_eq]
    rintro rfl
    exact absurd (hR.authority _ hc) (by decide)
  have hpath : ∀ c, R.path.head? = some c → decide (c ≠ '/') = false := by
    intro c hc
    rcases hR.path with hempty | hslash
    · simp [hempty] at hc
    · obtain rfl : '/' = c := by simpa [hslash] using hc
      rfl
  have hspan := span_append hauthority hpath
  rw [List.span_eq_takeWhile_dropWhile] at hspan
  exact congrArg Prod.fst hspan

/-- Settled parts name the same server exactly if they keep it. -/
theorem server_settle_iff (hL : L.IsWellFormed) (hclean : ∀ c ∈ L.text, isLineOrTab c = false)
    (hscheme : scheme ∈ webSchemes) (hbrackets : checkBrackets L.authority = .ok ())
    (hdelimiters : checkDelimiters L.authority = .ok ())
    (hport : (L.parts scheme).port = .of port) :
    (∃ q, split ((L.parts scheme).settle port).join = .ok q ∧
      q.server = (L.parts scheme).server) ↔ (L.parts scheme).KeepsServer port := by
  obtain ⟨R, hR, hchars, hjoin, -, -, hplace⟩ := exists_layout_settle scheme hL hclean port
  have hread : (∃ q, split ((L.parts scheme).settle port).join = .ok q ∧
      q.server = (L.parts scheme).server) ↔ checkBrackets R.authority = .ok () ∧
        checkDelimiters R.authority = .ok () ∧
        (R.parts scheme).server = (L.parts scheme).server := by
    simp only [hjoin, split_text_eq_ok hR hchars hscheme]
    constructor
    · rintro ⟨q, ⟨hb, hd, rfl⟩, hserver⟩
      exact ⟨hb, hd, hserver⟩
    · rintro ⟨hb, hd, hserver⟩
      exact ⟨R.parts scheme, ⟨hb, hd, rfl⟩, hserver⟩
  rw [hread]
  rcases hplace with ⟨hauthority, -, hslashes⟩ | ⟨hempty, hfull⟩
  · have hkeeps : ¬ (L.parts scheme).LosesSlashes port := fun h => hslashes h.1 h.2
    have hlasting := server_settled_iff (q := R.parts scheme) hauthority rfl hport hbrackets
    have hd : checkDelimiters R.authority = .ok () := by
      rw [hauthority]
      exact checkDelimiters_settled hdelimiters
    constructor
    · rintro ⟨hb, -, hserver⟩
      exact ⟨fun _ => hlasting.mp ⟨hb, hserver⟩, fun h => absurd h hkeeps⟩
    · intro h
      obtain ⟨hb, hserver⟩ := hlasting.mpr (h.lasting hkeeps)
      exact ⟨hb, hd, hserver⟩
  · have hloses : (L.parts scheme).LosesSlashes port :=
      ⟨hempty, by rw [hfull]; exact List.prefix_append ['/', '/'] _⟩
    have hfound : (L.parts scheme).foundAuthority port = R.authority := by
      rw [Parts.foundAuthority, hfull]
      exact takeWhile_authority hR
    have hsame : Parts.server { L.parts scheme with authority := R.authority } =
        (R.parts scheme).server := server_congr rfl rfl
    constructor
    · rintro ⟨hb, hd, hserver⟩
      refine ⟨fun h => absurd hloses h, fun _ => ?_⟩
      rw [hfound, hsame]
      exact ⟨hb, hd, hserver⟩
    · intro h
      have := h.found hloses
      rwa [hfound, hsame] at this

end Settled

/-! ## White space after an address -/

section Blanks

variable {authority blanks : List Char}

theorem blank_cases {c : Char} (hc : isBlank c = true) :
    IsCaseless c ∧ c.isDigit = false ∧ c ∉ "@:[]/?#".toList := by
  have hcode : c.toNat ∈ List.range' 9 5 ++ List.range' 28 5 ++ [0x85, 0xA0, 0x1680] ++
      List.range' 0x2000 11 ++ [0x2028, 0x2029, 0x202F, 0x205F, 0x3000] := by
    simp only [isBlank, Bool.or_eq_true, Bool.and_eq_true, decide_eq_true_eq, beq_iff_eq] at hc
    simp only [List.mem_append, List.mem_range'_1, List.mem_cons, List.not_mem_nil, or_false]
    omega
  have hall : ∀ n ∈ List.range' 9 5 ++ List.range' 28 5 ++ [0x85, 0xA0, 0x1680] ++
      List.range' 0x2000 11 ++ [0x2028, 0x2029, 0x202F, 0x205F, 0x3000],
      IsCaseless (Char.ofNat n) ∧ (Char.ofNat n).isDigit = false ∧
        Char.ofNat n ∉ "@:[]/?#".toList := by
    decide +kernel
  have hself := hall c.toNat hcode
  rwa [Char.ofNat_toNat] at hself

theorem isDigit_of_readable {p : Parts} (hport : p.port ≠ .unreadable) :
    ∀ c ∈ (cutHost p.authority).2, c.isDigit = true := by
  unfold Parts.port at hport
  simp only at hport
  split at hport
  · next hempty => simp [List.isEmpty_iff.mp hempty]
  · split at hport
    · next hdigits =>
        rw [Bool.and_eq_true, List.all_eq_true] at hdigits
        exact hdigits.1
    · simp at hport

theorem hostAndPort_append (hblanks : '@' ∉ blanks) :
    hostAndPort (authority ++ blanks) = hostAndPort authority ++ blanks := by
  have hnone : ∀ d ∈ blanks, (d == '@') = false := beq_of_not_mem hblanks
  rw [hostAndPort, hostAndPort]
  cases hcut : cutLast (· == '@') authority with
  | none =>
      have hall : cutLast (· == '@') (authority ++ blanks) = none := by
        rw [cutLast_eq_none]
        intro d hd
        rcases List.mem_append.mp hd with hd | hd
        · exact cutLast_eq_none.mp hcut d hd
        · exact hnone d hd
      rw [hall]
  | some pair =>
      obtain ⟨info, place⟩ := pair
      obtain ⟨d, hd, rfl, hplace⟩ := cutLast_eq_some hcut
      have hall : cutLast (· == '@') (info ++ d :: (place ++ blanks)) =
          some (info, place ++ blanks) := by
        apply cutLast_append (p := (· == '@')) hd
        intro e he
        rcases List.mem_append.mp he with he | he
        · exact hplace e he
        · exact hnone e he
      rw [List.append_assoc, List.cons_append, hall]

theorem isPortTail_of_checkBrackets {front inside : List Char} (hfront : '[' ∉ front)
    (hplace : hostAndPort authority = front ++ '[' :: inside)
    (hok : checkBrackets authority = .ok ()) : isPortTail (cutAt ']' inside).2 = true := by
  have hmem : '[' ∈ authority := mem_hostAndPort (by simp [hplace])
  obtain ⟨host, hhost, -⟩ := (checkBrackets_eq_ok hok).2 hmem
  have hcut : cutFirst (· == '[') (front ++ '[' :: inside) = some (front, inside) :=
    cutFirst_append rfl (beq_of_not_mem hfront)
  rw [bracketedHost, hplace, hcut] at hhost
  cases front with
  | nil =>
      simp only at hhost
      split at hhost
      · assumption
      · cases hhost
  | cons d front => cases hhost

/-- White space after an authority belongs to the host, if the port can be read. -/
theorem cutHost_append (hblanks : ∀ c ∈ blanks, isBlank c = true)
    (hok : checkBrackets (authority ++ blanks) = .ok ())
    (hdigits : ∀ c ∈ (cutHost (authority ++ blanks)).2, c.isDigit = true) :
    (cutHost (authority ++ blanks)).1 = (cutHost authority).1 ++ blanks := by
  cases hne : blanks with
  | nil => simp
  | cons e more =>
  rw [← hne]
  have he : e ∈ blanks := by simp [hne]
  have hno {d : Char} (hd : d ∈ "@:[]/?#".toList) : d ∉ blanks := fun hmem =>
    (blank_cases (hblanks d hmem)).2.2 hd
  have hplace : hostAndPort (authority ++ blanks) = hostAndPort authority ++ blanks :=
    hostAndPort_append (hno (by decide))
  have hport : e ∉ (cutHost (authority ++ blanks)).2 := by
    intro hmem
    have := (blank_cases (hblanks e he)).2.1
    simp [hdigits e hmem] at this
  by_cases hbracket : '[' ∈ hostAndPort authority
  · obtain ⟨front, inside, hinside, hfront⟩ := List.eq_append_cons_of_mem hbracket
    have hboth : hostAndPort (authority ++ blanks) = front ++ '[' :: (inside ++ blanks) := by
      rw [hplace, hinside]
      simp
    rw [cutHost_of_bracket hfront hboth] at hport ⊢
    rw [cutHost_of_bracket hfront hinside]
    rcases cutAt_cases ']' inside with ⟨hclosing, hcut⟩ | ⟨host, rest, rfl, hhost, hcut⟩
    · have hall : ']' ∉ inside ++ blanks := by
        rw [List.mem_append, not_or]
        exact ⟨hclosing, hno (by decide)⟩
      rw [cutAt_of_not_mem hall, hcut]
    · have hclosing : cutAt ']' (host ++ ']' :: rest ++ blanks) = (host, rest ++ blanks) := by
        rw [List.append_assoc, List.cons_append, cutAt_append hhost]
      have htail := isPortTail_of_checkBrackets hfront hboth hok
      rw [hclosing] at htail hport
      cases rest with
      | nil =>
          have hhead : e = ':' := by simpa [isPortTail, hne] using htail
          exact absurd he (hhead ▸ hno (by decide))
      | cons d rest =>
          obtain rfl : d = ':' := by simpa [isPortTail] using htail
          have hcolon : cutAt ':' (':' :: rest ++ blanks) = ([], rest ++ blanks) := by
            simp [cutAt, cutFirst]
          rw [hcolon] at hport
          exact absurd (List.mem_append_right rest he) hport
  · have hboth : '[' ∉ hostAndPort (authority ++ blanks) := by
      rw [hplace, List.mem_append, not_or]
      exact ⟨hbracket, hno (by decide)⟩
    rw [cutHost_of_no_bracket hboth, hplace] at hport ⊢
    rw [cutHost_of_no_bracket hbracket]
    rcases cutAt_cases ':' (hostAndPort authority) with ⟨hcolon, hcut⟩ |
      ⟨host, rest, hsame, hhost, hcut⟩
    · have hall : ':' ∉ hostAndPort authority ++ blanks := by
        rw [List.mem_append, not_or]
        exact ⟨hcolon, hno (by decide)⟩
      rw [cutAt_of_not_mem hall, hcut]
    · rw [hsame, List.append_assoc, List.cons_append, cutAt_append hhost] at hport
      exact absurd (List.mem_append_right rest he) hport

theorem sublist_cutHost_fst (authority : List Char) :
    (cutHost authority).1.Sublist (hostAndPort authority) := by
  by_cases hbracket : '[' ∈ hostAndPort authority
  · obtain ⟨front, inside, hinside, hfront⟩ := List.eq_append_cons_of_mem hbracket
    rw [cutHost_of_bracket hfront hinside, hinside]
    exact (sublist_cutAt_fst ']' inside).trans
      ((List.sublist_cons_self '[' inside).trans (List.sublist_append_right front _))
  · rw [cutHost_of_no_bracket hbracket]
    exact sublist_cutAt_fst ':' _

/-- White space in a host is missed. -/
theorem server_ne_of_blanks {p q s : Parts} (hblanks : ∀ c ∈ blanks, isBlank c = true)
    (hne : blanks ≠ []) (hp : p.authority = s.authority ++ blanks)
    (hok : checkBrackets p.authority = .ok ()) (hport : p.port ≠ .unreadable)
    (hq : q.authority = s.authority ∨ ∃ port, q.authority = settledAuthority s port) :
    q.server ≠ p.server := by
  obtain ⟨e, more, hcons⟩ := List.exists_cons_of_ne_nil hne
  have he : e ∈ blanks := by simp [hcons]
  obtain ⟨hcaseless, hdigit, hdelimiter⟩ := blank_cases (hblanks e he)
  have hcolon : e ≠ ':' := by
    rintro rfl
    exact absurd hdelimiter (by decide)
  have hmore : (lower p.hostname).count e =
      (cutHost s.authority).1.count e + blanks.count e := by
    have hdigits := isDigit_of_readable hport
    rw [hp] at hok hdigits
    rw [count_hostname hcaseless, hp, cutHost_append hblanks hok hdigits, List.count_append]
  have hless : (lower q.hostname).count e ≤ (cutHost s.authority).1.count e := by
    rw [count_hostname hcaseless]
    rcases hq with hq | ⟨port, hq⟩
    · rw [hq]
    · have hplace : (hostAndPort q.authority).count e = (cutHost s.authority).1.count e := by
        rw [hostAndPort_settled hq, List.count_append,
          List.count_eq_zero.mpr (not_mem_portText hdigit hcolon), Nat.add_zero,
          count_hostname hcaseless]
      rw [← hplace]
      exact (sublist_cutHost_fst q.authority).count_le e
  have hpos : 0 < blanks.count e := List.count_pos_iff.mpr he
  intro hserver
  have hhost : lower q.hostname = lower p.hostname := congrArg Server.host hserver
  rw [hhost] at hless
  omega

end Blanks

/-- The authority of settled parts without a path is the settled one. -/
theorem authority_of_split_settle {L : Layout} {scheme : List Char} {port : Option Nat} {q : Parts}
    (hL : L.IsWellFormed) (hclean : ∀ c ∈ L.text, isLineOrTab c = false)
    (hscheme : scheme ∈ webSchemes) (hpath : L.path = [])
    (hq : split ((L.parts scheme).settle port).join = .ok q) :
    q.authority = settledAuthority (L.parts scheme) port := by
  obtain ⟨R, hR, hchars, hjoin, -, -, hplace⟩ := exists_layout_settle scheme hL hclean port
  rw [hjoin] at hq
  obtain ⟨-, -, rfl⟩ := (split_text_eq_ok hR hchars hscheme).mp hq
  rcases hplace with ⟨hauthority, -⟩ | ⟨-, hfull⟩
  · exact hauthority
  · rw [fullPath_settle_of_nil scheme hpath] at hfull
    cases hfull

/-- White space after a web address that changes the authority changes the server. -/
theorem server_ne_of_authority_ne {name start more v : List Char} {p s q : Parts}
    (hname : name.map Char.toLower ∈ webSchemes) (hblank : ∀ c ∈ more, isBlank c = true)
    (hp : split (webText name (start ++ more)) = .ok p) (hport : p.port ≠ .unreadable)
    (hs : split (webText name start) = .ok s) (hne : s.authority ≠ p.authority)
    (hv : normalizeWeb (webText name start) = .ok v) (hq : split v = .ok q) :
    q.server ≠ p.server := by
  obtain ⟨hbrackets, -, hparts⟩ := (split_eq_ok hname).mp hp
  obtain ⟨-, -, hsparts⟩ := (split_eq_ok hname).mp hs
  have hclean : clean (start ++ more) = clean start ++ clean more := List.filter_append _ _
  have hmore : ∀ c ∈ clean more, isBlank c = true := fun c hc =>
    hblank c (List.mem_filter.mp hc).1
  have hends : ∀ c ∈ clean more, endsAuthority c = false := fun c hc =>
    endsAuthority_eq_false (by decide) (hmore c hc)
  rw [hclean] at hbrackets hparts
  have hsauthority : s.authority = (layout (clean start)).authority := by rw [hsparts]; rfl
  have hpauthority : p.authority = (layout (clean start ++ clean more)).authority := by
    rw [hparts]
    rfl
  rw [hsauthority, hpauthority] at hne
  obtain ⟨hall, hpath, hgrown⟩ :=
    (layout_append_authority (clean start) hends).resolve_left (Ne.symm hne)
  have hnonempty : clean more ≠ [] := by
    intro hempty
    rw [hempty, List.append_nil] at hne
    exact hne rfl
  have hplace : p.authority = s.authority ++ clean more := by
    rw [hpauthority, hgrown, hsauthority, hall]
  apply server_ne_of_blanks hmore hnonempty hplace (hpauthority ▸ hbrackets) hport
  obtain ⟨s', hs', hcases⟩ := normalizeWeb_eq_ok hv
  obtain rfl := Except.ok.inj (hs.symm.trans hs')
  rcases hcases with ⟨-, rfl⟩ | ⟨port, -, rfl⟩
  · obtain rfl := Except.ok.inj (hs.symm.trans hq)
    exact .inl rfl
  · rw [hsparts] at hq ⊢
    exact .inr ⟨port, authority_of_split_settle (isWellFormed_layout _)
      (isLineOrTab_of_mem_layout start) hname hpath hq⟩

/-- The normal form of a web address names the same server exactly if it keeps it. -/
theorem server_normalize_iff {u v : List Char} {p : Parts} (hu : isWeb u = true)
    (hv : normalize u = .ok v) (hp : split u = .ok p) (hport : p.port ≠ .unreadable) :
    (∃ q, split v = .ok q ∧ q.server = p.server) ↔ KeepsServer u p := by
  obtain ⟨name, start, more, hname, rfl, hblank, hstart, hnormal⟩ := exists_stripped hu
  rw [hnormal] at hv
  rw [KeepsServer, hstart]
  obtain ⟨-, -, hparts⟩ := (split_eq_ok hname).mp hp
  obtain ⟨s, hs, hcases⟩ := normalizeWeb_eq_ok hv
  obtain ⟨hbrackets, hdelimiters, hsparts⟩ := (split_eq_ok hname).mp hs
  by_cases hauthority : s.authority = p.authority
  · have hserver : s.server = p.server := by
      refine server_congr ?_ hauthority
      rw [hsparts, hparts]
      rfl
    have hread : s.port ≠ .unreadable := by
      unfold Parts.port
      rw [hauthority]
      exact hport
    obtain ⟨port, hsport, rfl⟩ := (hcases.resolve_left fun h => hread h.1)
    have hkeeps := server_settle_iff (isWellFormed_layout (clean start))
      (isLineOrTab_of_mem_layout start) hname hbrackets hdelimiters (hsparts ▸ hsport)
    rw [← hsparts, hserver] at hkeeps
    rw [hkeeps]
    constructor
    · exact fun h => ⟨s, port, hs, hsport, hauthority, h⟩
    · rintro ⟨s', port', hs', hsport', -, h⟩
      obtain rfl := Except.ok.inj (hs.symm.trans hs')
      obtain rfl := Port.of_inj (hsport.symm.trans hsport')
      exact h
  · have hnot : ¬ ∃ s' port, split (webText name start) = .ok s' ∧ s'.port = .of port ∧
        s'.authority = p.authority ∧ s'.KeepsServer port := by
      rintro ⟨s', port, hs', -, hsame, -⟩
      obtain rfl := Except.ok.inj (hs.symm.trans hs')
      exact hauthority hsame
    rw [iff_false_intro hnot, iff_false]
    rintro ⟨q, hq, hserver⟩
    exact server_ne_of_authority_ne hname hblank hp hport hs hauthority hv hq hserver

end LinkShelf.Url
