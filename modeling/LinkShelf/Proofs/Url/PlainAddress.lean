import LinkShelf.Proofs.Url.Settling
import LinkShelf.Proofs.Url.Spelling

/-!
Plain web addresses: a host of letters, digits, hyphens and full stops, perhaps a port, and a path,
a query and a fragment with whole escapes. Main statements: a plain address has a normal form in
which its parts stand each on its own (`IsPlain.normalize_text`), unless its port has more digits
than are read; then it stays as it is (`IsPlain.normalize_text_of_long`).
-/

namespace LinkShelf.Url

open Text

/-- A web address as it is spelled. The port, the query and the fragment may be missing. -/
structure WebAddress where
  scheme : List Char
  host : List Char
  port : Option (List Char)
  path : List Char
  query : Option (List Char)
  fragment : Option (List Char)

/-- A part behind its delimiter, if it is there. -/
def announced (c : Char) : Option (List Char) → List Char
  | none => []
  | some part => c :: part

def isHostChar (c : Char) : Bool := c.isAlphanum || c = '-' || c = '.'

/-- What stands for itself in a path, apart from the semicolon. -/
def isPathChar (c : Char) : Bool := isUnreserved c || "/!$&'()*+,=:@".toList.contains c

/-- What stands for itself in a query and in a fragment. -/
def isQueryChar (c : Char) : Bool := isUnreserved c || "/?!$&'()*+,;=:@".toList.contains c

/-- The number of a port. -/
def portNumber (digits : List Char) : Nat := Nat.ofDigitChars 10 digits 0

namespace WebAddress

/-- The host with the port. -/
def place (a : WebAddress) : List Char := a.host ++ announced ':' a.port

/-- What follows the two slashes. -/
def rest (a : WebAddress) : List Char :=
  a.place ++ (a.path ++ announced '?' a.query ++ announced '#' a.fragment)

def text (a : WebAddress) : List Char := webText a.scheme a.rest

/-- Whether an address is a plain one. -/
structure IsPlain (a : WebAddress) : Prop where
  scheme : a.scheme.map Char.toLower ∈ webSchemes
  host : a.host ≠ []
  hostChars : ∀ c ∈ a.host, isHostChar c = true
  port : ∀ digits, a.port = some digits → (∀ c ∈ digits, c.isDigit = true) ∧
    0 < portNumber digits ∧ portNumber digits ≤ 65535
  path : a.path = [] ∨ a.path.head? = some '/'
  pathChars : Written isPathChar a.path
  query : ∀ part, a.query = some part → Written isQueryChar part
  fragment : ∀ part, a.fragment = some part → Written isQueryChar part

/-- Whether the port has no more digits than are read. -/
def HasShortPort (a : WebAddress) : Prop :=
  ∀ digits, a.port = some digits → digits.length ≤ maxPortDigits

/-- The normal form, part by part. -/
def normal (a : WebAddress) : List Char :=
  let scheme := a.scheme.map Char.toLower
  webText scheme (Layout.text {
    authority := a.host.map Char.toLower ++ portText (writtenPort scheme (a.port.map portNumber))
    path := settledPath a.path
    query := decodeUnreserved (a.query.getD [])
    fragment := decodeUnreserved (a.fragment.getD []) })

end WebAddress

/-! ## Characters -/

section Characters

variable {c : Char}

/-- Whether a character is printed in ASCII. -/
def isGraphic (c : Char) : Bool := 33 ≤ c.toNat && c.toNat ≤ 126

theorem isGraphic_iff : isGraphic c = true ↔ 33 ≤ c.toNat ∧ c.toNat ≤ 126 := by
  simp [isGraphic]

theorem isGraphic_of_isDigit (hc : c.isDigit = true) : isGraphic c = true := by
  have hrange : 48 ≤ c.toNat ∧ c.toNat ≤ 57 := by
    simpa [Char.isDigit, UInt32.le_iff_toNat_le] using hc
  rw [isGraphic_iff]
  omega

theorem isGraphic_of_isAlphanum (hc : c.isAlphanum = true) : isGraphic c = true := by
  rw [Char.isAlphanum, Bool.or_eq_true] at hc
  rcases hc with hc | hc
  · have := toNat_of_isAlpha hc
    rw [isGraphic_iff]
    omega
  · exact isGraphic_of_isDigit hc

theorem isGraphic_of_isUnreserved (hc : isUnreserved c = true) : isGraphic c = true := by
  simp only [isUnreserved, Bool.or_eq_true, decide_eq_true_eq] at hc
  rcases hc with (((hc | rfl) | rfl) | rfl) | rfl
  · exact isGraphic_of_isAlphanum hc
  · rfl
  · rfl
  · rfl
  · rfl

theorem isGraphic_of_isHostChar (hc : isHostChar c = true) : isGraphic c = true := by
  simp only [isHostChar, Bool.or_eq_true, decide_eq_true_eq] at hc
  rcases hc with (hc | rfl) | rfl
  · exact isGraphic_of_isAlphanum hc
  · rfl
  · rfl

theorem isGraphic_of_isPathChar (hc : isPathChar c = true) : isGraphic c = true := by
  rw [isPathChar, Bool.or_eq_true] at hc
  rcases hc with hc | hc
  · exact isGraphic_of_isUnreserved hc
  · have hall : ∀ d ∈ "/!$&'()*+,=:@".toList, isGraphic d = true := by decide
    exact hall c (by simpa using hc)

theorem isGraphic_of_isQueryChar (hc : isQueryChar c = true) : isGraphic c = true := by
  rw [isQueryChar, Bool.or_eq_true] at hc
  rcases hc with hc | hc
  · exact isGraphic_of_isUnreserved hc
  · have hall : ∀ d ∈ "/?!$&'()*+,;=:@".toList, isGraphic d = true := by decide
    exact hall c (by simpa using hc)

theorem isGraphic_of_written {p : Char → Bool} {cs : List Char}
    (hp : ∀ c, p c = true → isGraphic c = true) (hcs : Written p cs) :
    ∀ c ∈ cs, isGraphic c = true := by
  intro c hc
  rcases hcs.mem hc with hc | rfl | hc
  · exact hp c hc
  · rfl
  · exact forall_isHexDigit (P := fun c => isGraphic c = true) (by decide) hc

/-- A character that is not for itself in a path or a query and no digit is not in one. -/
theorem not_mem_written {p : Char → Bool} {cs : List Char} (hcs : Written p cs)
    (hp : p c = false) (hpercent : c ≠ '%') (hdigit : isHexDigit c = false) : c ∉ cs := by
  intro hc
  rcases hcs.mem hc with hc | hc | hc
  · simp [hp] at hc
  · exact hpercent hc
  · simp [hdigit] at hc

theorem plain_of_isGraphic (hc : isGraphic c = true) :
    isBlank c = false ∧ isLineOrTab c = false ∧ standsForDelimiter c = false := by
  rw [isGraphic_iff] at hc
  refine ⟨?_, ?_, ?_⟩
  · rw [Bool.eq_false_iff]
    intro hblank
    simp only [isBlank, Bool.or_eq_true, Bool.and_eq_true, decide_eq_true_eq, beq_iff_eq] at hblank
    omega
  · exact isLineOrTab_eq_false (by decide) (isGraphic_iff.mpr hc)
  · rw [Bool.eq_false_iff]
    intro hstands
    simp only [standsForDelimiter, List.contains_eq_mem, decide_eq_true_eq, List.mem_cons,
      List.not_mem_nil, or_false] at hstands
    omega

end Characters

/-! ## Parts of a plain address -/

theorem cutAt_announced {c : Char} {front : List Char} (hfront : c ∉ front)
    (part : Option (List Char)) : cutAt c (front ++ announced c part) = (front, part.getD []) := by
  cases part with
  | none => simpa [announced] using cutAt_of_not_mem hfront
  | some part => exact cutAt_append hfront

namespace WebAddress

variable {a : WebAddress}

theorem IsPlain.not_mem_host (ha : a.IsPlain) {c : Char} (hc : isHostChar c = false) :
    c ∉ a.host := by
  intro hmem
  simp [ha.hostChars c hmem] at hc

theorem IsPlain.mem_place (ha : a.IsPlain) {c : Char} (hc : c ∈ a.place) :
    isHostChar c = true ∨ c = ':' := by
  rw [place, List.mem_append] at hc
  rcases hc with hc | hc
  · exact .inl (ha.hostChars c hc)
  · cases hport : a.port with
    | none => simp [hport, announced] at hc
    | some digits =>
        rw [hport] at hc
        rcases List.mem_cons.mp hc with rfl | hc
        · exact .inr rfl
        · left
          simp [isHostChar, Char.isAlphanum, (ha.port digits hport).1 c hc]

theorem IsPlain.not_mem_place (ha : a.IsPlain) {c : Char} (hc : isHostChar c = false)
    (hcolon : c ≠ ':') : c ∉ a.place := by
  intro hmem
  rcases ha.mem_place hmem with h | h
  · simp [hc] at h
  · exact hcolon h

theorem IsPlain.not_mem_path (ha : a.IsPlain) {c : Char} (hp : isPathChar c = false)
    (hpercent : c ≠ '%') (hdigit : isHexDigit c = false) : c ∉ a.path :=
  not_mem_written ha.pathChars hp hpercent hdigit

theorem IsPlain.number_not_mem_query (ha : a.IsPlain) : '#' ∉ announced '?' a.query := by
  cases hquery : a.query with
  | none => simp [announced]
  | some part =>
      have hpart := not_mem_written (c := '#') (ha.query part hquery) (by decide) (by decide)
        (by decide)
      simpa [announced] using hpart

/-- A plain address is laid out part by part. -/
theorem IsPlain.layout_rest (ha : a.IsPlain) :
    layout a.rest = ⟨a.place, a.path, a.query.getD [], a.fragment.getD []⟩ := by
  have hfront : ∀ c ∈ a.place, (!endsAuthority c) = true := by
    intro c hc
    rw [Bool.not_eq_true']
    rcases ha.mem_place hc with hc | rfl
    · exact endsAuthority_eq_false (by decide) hc
    · rfl
  have hrest : ∀ c, (a.path ++ announced '?' a.query ++ announced '#' a.fragment).head? = some c →
      (!endsAuthority c) = false := by
    intro c hc
    rcases ha.path with hpath | hpath
    · rw [hpath, List.nil_append] at hc
      cases hquery : a.query with
      | some part =>
          obtain rfl : '?' = c := by simpa [hquery, announced] using hc
          rfl
      | none =>
          cases hfragment : a.fragment with
          | some part =>
              obtain rfl : '#' = c := by simpa [hquery, hfragment, announced] using hc
              rfl
          | none => simp [hquery, hfragment, announced] at hc
    · rw [List.append_assoc, List.head?_append, hpath] at hc
      obtain rfl : '/' = c := by simpa using hc
      rfl
  have hnumber : '#' ∉ a.path ++ announced '?' a.query := by
    rw [List.mem_append, not_or]
    exact ⟨ha.not_mem_path (by decide) (by decide) (by decide), ha.number_not_mem_query⟩
  have hmark : '?' ∉ a.path := ha.not_mem_path (by decide) (by decide) (by decide)
  rw [layout, rest, span_append hfront hrest]
  simp only [cutAt_announced hnumber, cutAt_announced hmark]

theorem IsPlain.isGraphic_rest (ha : a.IsPlain) : ∀ c ∈ a.rest, isGraphic c = true := by
  have hannounced {d : Char} {part : Option (List Char)} (hd : isGraphic d = true)
      (hpart : ∀ cs, part = some cs → Written isQueryChar cs) :
      ∀ c ∈ announced d part, isGraphic c = true := by
    intro c hc
    cases part with
    | none => simp [announced] at hc
    | some cs =>
        rcases List.mem_cons.mp hc with rfl | hc
        · exact hd
        · exact isGraphic_of_written (fun _ => isGraphic_of_isQueryChar) (hpart cs rfl) c hc
  intro c hc
  simp only [rest, List.mem_append] at hc
  rcases hc with hc | (hc | hc) | hc
  · rcases ha.mem_place hc with hc | rfl
    · exact isGraphic_of_isHostChar hc
    · rfl
  · exact isGraphic_of_written (fun _ => isGraphic_of_isPathChar) ha.pathChars c hc
  · exact hannounced rfl ha.query c hc
  · exact hannounced rfl ha.fragment c hc

theorem IsPlain.clean_rest (ha : a.IsPlain) : clean a.rest = a.rest :=
  clean_eq_self fun c hc => (plain_of_isGraphic (ha.isGraphic_rest c hc)).2.1

theorem IsPlain.stripEnd_rest (ha : a.IsPlain) : stripEnd a.rest = a.rest :=
  dropEndWhile_of_getLast? isBlank a.rest fun c hc =>
    (plain_of_isGraphic (ha.isGraphic_rest c (List.mem_of_getLast? hc))).1

/-- The parts of a plain address. -/
def parts (a : WebAddress) : Parts where
  scheme := a.scheme.map Char.toLower
  authority := a.place
  path := a.path
  params := []
  query := a.query.getD []
  fragment := a.fragment.getD []

theorem IsPlain.cutParams_path (ha : a.IsPlain) : cutParams a.path = (a.path, []) := by
  rcases cutParams_cases a.path with hcut | ⟨before, params, hpath, -⟩
  · exact hcut
  · have hmark : ';' ∉ a.path := ha.not_mem_path (by decide) (by decide) (by decide)
    rw [hpath] at hmark
    simp at hmark

theorem IsPlain.parts_layout (ha : a.IsPlain) :
    (layout a.rest).parts (a.scheme.map Char.toLower) = a.parts := by
  simp only [ha.layout_rest, Layout.parts, ha.cutParams_path]
  rfl

theorem IsPlain.split_text (ha : a.IsPlain) : split a.text = .ok a.parts := by
  have hbrackets : checkBrackets a.place = .ok () := by
    have hopening : a.place.contains '[' = false := by
      simpa using ha.not_mem_place (c := '[') (by decide) (by decide)
    have hclosing : a.place.contains ']' = false := by
      simpa using ha.not_mem_place (c := ']') (by decide) (by decide)
    simp only [checkBrackets, hopening, hclosing, bne_self_eq_false, Bool.false_eq_true, if_false]
  have hdelimiters : checkDelimiters a.place = .ok () := by
    have hnone : a.place.any standsForDelimiter = false := by
      rw [List.any_eq_false]
      intro c hc
      have hgraphic := ha.isGraphic_rest c (by simp [rest, hc])
      simp [(plain_of_isGraphic hgraphic).2.2]
    simp only [checkDelimiters, hnone, Bool.false_eq_true, if_false]
  rw [text, split_web ha.scheme, ha.clean_rest, ha.parts_layout, ha.layout_rest]
  simp only [hbrackets, hdelimiters, ok_bind]
  rfl

theorem IsPlain.hostAndPort_place (ha : a.IsPlain) : hostAndPort a.place = a.place := by
  have hat : '@' ∉ a.place := ha.not_mem_place (by decide) (by decide)
  rcases userInfo_cases a.parts with ⟨-, hplace, -⟩ | ⟨info, place, hplace, -⟩
  · exact hplace
  · have hmem : '@' ∈ a.parts.authority := by simp [hplace]
    exact absurd hmem hat

theorem IsPlain.user_parts (ha : a.IsPlain) : a.parts.user = ([], []) := by
  have hat : '@' ∉ a.place := ha.not_mem_place (by decide) (by decide)
  rcases userInfo_cases a.parts with ⟨-, -, huser⟩ | ⟨info, place, hplace, -⟩
  · exact huser
  · have hmem : '@' ∈ a.parts.authority := by simp [hplace]
    exact absurd hmem hat

theorem IsPlain.cutHost_place (ha : a.IsPlain) : cutHost a.place = (a.host, a.port.getD []) := by
  have hbracket : '[' ∉ hostAndPort a.place := by
    rw [ha.hostAndPort_place]
    exact ha.not_mem_place (by decide) (by decide)
  rw [cutHost_of_no_bracket hbracket, ha.hostAndPort_place, place,
    cutAt_announced (ha.not_mem_host (by decide))]

theorem IsPlain.port_parts (ha : a.IsPlain) (hshort : a.HasShortPort) :
    a.parts.port = .of (a.port.map portNumber) := by
  have hcut : cutHost a.parts.authority = (a.host, a.port.getD []) := ha.cutHost_place
  cases hport : a.port with
  | none =>
      rw [hport] at hcut
      simp [Parts.port, hcut, Port.of]
  | some digits =>
      rw [hport] at hcut
      obtain ⟨hdigits, hpos, hle⟩ := ha.port digits hport
      have hempty : digits.isEmpty = false := by
        cases digits with
        | nil => simp [portNumber] at hpos
        | cons c cs => rfl
      have hnumber : digits.foldl (fun n c => 10 * n + (c.toNat - '0'.toNat)) 0 =
          portNumber digits := rfl
      unfold Parts.port
      simp only [hcut, Option.getD_some, hempty, hshort digits hport, hnumber, hle,
        List.all_eq_true.mpr hdigits, decide_true, Bool.and_self, Bool.false_eq_true, if_true,
        if_false, Option.map_some, Port.of]

theorem IsPlain.port_parts_of_long (ha : a.IsPlain) {digits : List Char}
    (hport : a.port = some digits) (hlong : maxPortDigits < digits.length) :
    a.parts.port = .unreadable := by
  have hcut : cutHost a.parts.authority = (a.host, digits) := by
    have hplace := ha.cutHost_place
    rwa [hport] at hplace
  have hempty : digits.isEmpty = false := by
    cases digits with
    | nil => simp at hlong
    | cons c cs => rfl
  unfold Parts.port
  simp only [hcut, hempty, Nat.not_le.mpr hlong, decide_false, Bool.and_false,
    Bool.false_eq_true, if_false]

theorem IsPlain.lower_hostname (ha : a.IsPlain) :
    lower a.parts.hostname = a.host.map Char.toLower := by
  have hcut : (cutHost a.parts.authority).1 = a.host := congrArg Prod.fst ha.cutHost_place
  have hascii : ∀ c ∈ a.host, c.toNat < 128 := fun c hc => by
    have := isGraphic_iff.mp (isGraphic_of_isHostChar (ha.hostChars c hc))
    omega
  have hpercent : '%' ∉ a.host := ha.not_mem_host (by decide)
  have htake : a.host.takeWhile (· ≠ '%') = a.host := by
    rw [List.takeWhile_eq_self_iff]
    intro c hc
    rw [decide_eq_true_eq]
    rintro rfl
    exact hpercent hc
  have hdrop : a.host.dropWhile (· ≠ '%') = [] := by
    have hall := List.takeWhile_append_dropWhile (p := (· ≠ '%')) (l := a.host)
    rw [htake] at hall
    simpa using hall
  rw [Parts.hostname, hcut, htake, hdrop, List.append_nil, lower_lower, lower_ascii hascii]

theorem IsPlain.settledAuthority_parts (ha : a.IsPlain) (port : Option Nat) :
    settledAuthority a.parts port = a.host.map Char.toLower ++
      portText (writtenPort (a.scheme.map Char.toLower) port) := by
  rw [settledAuthority_eq, ha.user_parts, ha.lower_hostname]
  rfl

theorem IsPlain.join_settle (ha : a.IsPlain) :
    (a.parts.settle (a.port.map portNumber)).join = a.normal := by
  have hclean : ∀ c ∈ a.rest, isLineOrTab c = false := fun c hc =>
    (plain_of_isGraphic (ha.isGraphic_rest c hc)).2.1
  obtain ⟨R, -, -, hjoin, hquery, hfragment, hplace⟩ :=
    exists_layout_settle (a.scheme.map Char.toLower) (isWellFormed_layout a.rest)
      (isLineOrTab_of_mem_text hclean) (a.port.map portNumber)
  rw [ha.parts_layout] at hjoin hplace
  rw [ha.layout_rest] at hquery hfragment
  rcases hplace with ⟨hauthority, hpath, -⟩ | ⟨hempty, -⟩
  · rw [ha.settledAuthority_parts] at hauthority
    have hsettled : (a.parts.settle (a.port.map portNumber)).fullPath = settledPath a.path :=
      List.append_nil _
    rw [hjoin, normal, Layout.text, hauthority, hpath, hsettled, hquery, hfragment]
    rfl
  · rw [ha.settledAuthority_parts] at hempty
    have := ha.host
    simp_all

/-- The normal form of a plain address. -/
theorem IsPlain.normalize_text (ha : a.IsPlain) (hshort : a.HasShortPort) :
    normalize a.text = .ok a.normal := by
  rw [← ha.join_settle, ← normalizeWeb_of_split ha.split_text (ha.port_parts hshort), text,
    normalize_webText ha.scheme, ha.stripEnd_rest]

/-- An address whose port has too many digits stays as it is. -/
theorem IsPlain.normalize_text_of_long (ha : a.IsPlain) {digits : List Char}
    (hport : a.port = some digits) (hlong : maxPortDigits < digits.length) :
    normalize a.text = .ok a.text := by
  rw [text, normalize_webText ha.scheme, ha.stripEnd_rest]
  exact normalizeWeb_of_unreadable ha.split_text (ha.port_parts_of_long hport hlong)

end WebAddress

end LinkShelf.Url
