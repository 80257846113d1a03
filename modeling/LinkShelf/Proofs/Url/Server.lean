import LinkShelf.Proofs.Url.Settling

/-!
The server that a web address names: the host in lower case, the port that is written or implied,
and the user with the password. Main statement: a settled authority is one of the same server
exactly if nothing is lost when the authority is taken apart and put together
(`server_settled_iff`).
-/

namespace LinkShelf.Url

open Text

/-- What a URL says about the server that it names. -/
structure Server where
  host : List Char
  port : Option Nat
  username : Option (List Char)
  password : Option (List Char)
  deriving DecidableEq

namespace Parts

/-- What stands before the last at sign of the authority. -/
def userInfo? (p : Parts) : Option (List Char) := (cutLast (· == '@') p.authority).map (·.1)

def username? (p : Parts) : Option (List Char) := p.userInfo?.map fun info => (cutAt ':' info).1

def password? (p : Parts) : Option (List Char) :=
  p.userInfo?.bind fun info => (cutFirst (· == ':') info).map (·.2)

/-- The port that is written, or else the one that the scheme implies. -/
def effectivePort? (p : Parts) : Option Nat :=
  match p.port with
  | .missing => defaultPort? p.scheme
  | .number n => some n
  | .unreadable => none

def server (p : Parts) : Server where
  host := lower p.hostname
  port := p.effectivePort?
  username := p.username?
  password := p.password?

/-- Whether an authority survives when its parts are put together again: the user and the password
have characters where they are announced, the port is not zero, the host has no colon and no opening
bracket, and without those around the host the brackets are balanced. -/
structure HasLastingServer (p : Parts) : Prop where
  username : p.username? ≠ some []
  password : p.password? ≠ some []
  port : p.port ≠ .number 0
  colon : ':' ∉ (cutHost p.authority).1
  bracket : '[' ∉ (cutHost p.authority).1
  brackets : '[' ∈ p.user.1 ++ p.user.2 ↔
    ']' ∈ p.user.1 ++ p.user.2 ∨ ']' ∈ (cutHost p.authority).1

end Parts

variable {p q : Parts} {port : Option Nat} {c : Char}

theorem server_congr (hscheme : p.scheme = q.scheme) (hauthority : p.authority = q.authority) :
    p.server = q.server := by
  have hport : p.port = q.port := by
    unfold Parts.port
    rw [hauthority]
  rw [Parts.server, Parts.server, Parts.hostname, Parts.hostname, Parts.effectivePort?,
    Parts.effectivePort?, Parts.username?, Parts.username?, Parts.password?, Parts.password?,
    Parts.userInfo?, Parts.userInfo?, hport, hscheme, hauthority]

/-! ## Users -/

theorem cutAt_eq (c : Char) (cs : List Char) :
    (cutFirst (· == c) cs = none ∧ cutAt c cs = (cs, [])) ∨
      ∃ after, cutFirst (· == c) cs = some ((cutAt c cs).1, after) ∧ (cutAt c cs).2 = after := by
  cases hcut : cutFirst (· == c) cs with
  | none => exact .inl ⟨rfl, by rw [cutAt, hcut]⟩
  | some pair =>
      obtain ⟨before, after⟩ := pair
      exact .inr ⟨after, by rw [cutAt, hcut], by rw [cutAt, hcut]⟩

theorem user_eq (p : Parts) : p.user = (p.username?.getD [], p.password?.getD []) := by
  rw [Parts.user, Parts.username?, Parts.password?, Parts.userInfo?]
  cases hcut : cutLast (· == '@') p.authority with
  | none => rfl
  | some pair =>
      rcases cutAt_eq ':' pair.1 with ⟨hnone, hall⟩ | ⟨after, hsome, hafter⟩
      · simp [hnone, hall]
      · simp [hsome, ← hafter]

section Settled

variable (hq : q.authority = settledAuthority p port)

include hq

theorem userInfo_settled :
    q.userInfo? = if p.user.1.isEmpty then none
      else some (p.user.1 ++ delimited ':' p.user.2) := by
  rw [Parts.userInfo?, hq, settledAuthority_eq, cutLast_userText (at_not_mem_hostname p)]
  split
  · rfl
  · rfl

theorem username_settled :
    q.username? = if p.user.1.isEmpty then none else some p.user.1 := by
  rw [Parts.username?, userInfo_settled hq]
  split
  · rfl
  · rw [Option.map_some, cutAt_delimited (colon_not_mem_user p)]

theorem password_settled :
    q.password? = if p.user.1.isEmpty ∨ p.user.2.isEmpty then none else some p.user.2 := by
  rw [Parts.password?, userInfo_settled hq]
  by_cases huser : p.user.1.isEmpty = true
  · simp [huser]
  · have hbefore : ∀ d ∈ p.user.1, (d == ':') = false := beq_of_not_mem (colon_not_mem_user p)
    by_cases hpassword : p.user.2.isEmpty = true
    · have hcut : cutFirst (· == ':') p.user.1 = none := cutFirst_eq_none.mpr hbefore
      simp [huser, hpassword, delimited, hcut]
    · have hcut : cutFirst (· == ':') (p.user.1 ++ ':' :: p.user.2) = some (p.user.1, p.user.2) :=
        cutFirst_append rfl hbefore
      simp [huser, hpassword, delimited, hcut]

/-- The user survives if it is not announced in vain. -/
theorem user_settled_iff : (q.username? = p.username? ∧ q.password? = p.password?) ↔
    p.username? ≠ some [] ∧ p.password? ≠ some [] := by
  rw [username_settled hq, password_settled hq, user_eq p]
  have hnone : p.username? = none → p.password? = none := by
    rw [Parts.username?, Parts.password?]
    cases p.userInfo? <;> simp
  cases huser : p.username? with
  | none => simp [hnone huser]
  | some user =>
      cases user with
      | nil => simp
      | cons c cs =>
          cases hpassword : p.password? with
          | none => simp
          | some password => cases password <;> simp

end Settled

/-! ## Hosts -/

theorem hostAndPort_settled (hq : q.authority = settledAuthority p port) :
    hostAndPort q.authority = lower p.hostname ++ portText (writtenPort p.scheme port) := by
  rw [hq, settledAuthority_eq, hostAndPort_userText (at_not_mem_hostname p)]

theorem cutHost_settled (hq : q.authority = settledAuthority p port)
    (hcolon : ':' ∉ (cutHost p.authority).1) (hbracket : '[' ∉ (cutHost p.authority).1) :
    cutHost q.authority = (lower p.hostname, (portText (writtenPort p.scheme port)).drop 1) := by
  have hcolon' : ':' ∉ lower p.hostname := by
    rwa [mem_hostname_iff (isCaseless_delimiters (by decide))]
  have hbracket' : '[' ∉ lower p.hostname := by
    rwa [mem_hostname_iff (isCaseless_delimiters (by decide))]
  rw [hq, settledAuthority_eq, cutHost_userText (at_not_mem_hostname p) hcolon' hbracket']

theorem hostname_settled (hq : q.authority = settledAuthority p port)
    (hcolon : ':' ∉ (cutHost p.authority).1) (hbracket : '[' ∉ (cutHost p.authority).1) :
    q.hostname = lower p.hostname :=
  hostname_of_lower (by rw [cutHost_settled hq hcolon hbracket]) (lower_lower _)

/-- The host survives if it has no character that delimits hosts. -/
theorem hostname_settled_iff (hq : q.authority = settledAuthority p port) :
    lower q.hostname = lower p.hostname ↔
      ':' ∉ (cutHost p.authority).1 ∧ '[' ∉ (cutHost p.authority).1 := by
  constructor
  · intro hsame
    have hplace := hostAndPort_settled hq
    have hopening : IsCaseless '[' := isCaseless_delimiters (by decide)
    have hmark : IsCaseless ':' := isCaseless_delimiters (by decide)
    have hno : '[' ∉ hostAndPort q.authority := by
      intro hmem
      obtain ⟨front, inside, hinside, hfront⟩ := List.eq_append_cons_of_mem hmem
      have hports : (portText (writtenPort p.scheme port)).count '[' = 0 :=
        List.count_eq_zero.mpr (not_mem_portText (by decide) (by decide))
      have hinner : (lower q.hostname).count '[' ≤ inside.count '[' :=
        calc (lower q.hostname).count '[' = (cutHost q.authority).1.count '[' :=
            count_hostname hopening
          _ = (cutAt ']' inside).1.count '[' := by rw [cutHost_of_bracket hfront hinside]
          _ ≤ inside.count '[' := (sublist_cutAt_fst ']' inside).count_le '['
      have houter := congrArg (List.count '[') (hinside.symm.trans hplace)
      simp only [List.count_append, List.count_cons_self, hports] at houter
      rw [hsame] at hinner
      omega
    constructor
    · rw [← mem_hostname_iff hmark, ← hsame, mem_hostname_iff hmark, cutHost_of_no_bracket hno]
      exact fun hmem => (mem_cutAt_fst hmem).2 rfl
    · rw [← mem_hostname_iff hopening]
      intro hmem
      rw [hplace] at hno
      exact hno (List.mem_append_left _ hmem)
  · rintro ⟨hcolon, hbracket⟩
    rw [hostname_settled hq hcolon hbracket, lower_lower]

theorem defaultPort?_ne_zero (scheme : List Char) : defaultPort? scheme ≠ some 0 := by
  rw [defaultPort?]
  split
  · simp
  · split <;> simp

/-- The port survives if it is not zero. -/
theorem effectivePort_settled_iff (hq : q.authority = settledAuthority p port)
    (hscheme : q.scheme = p.scheme) (hport : p.port = .of port)
    (hcolon : ':' ∉ (cutHost p.authority).1) (hbracket : '[' ∉ (cutHost p.authority).1) :
    q.effectivePort? = p.effectivePort? ↔ p.port ≠ .number 0 := by
  have hread : q.port = .of (writtenPort p.scheme port) := by
    refine port_of_cutHost (fun n hn => ?_) (cutHost_settled hq hcolon hbracket)
    obtain ⟨rfl, -⟩ := writtenPort_eq_some hn
    exact le_of_port hport
  rw [Parts.effectivePort?, Parts.effectivePort?, hread, hport, hscheme]
  cases port with
  | none => simp [writtenPort, Port.of]
  | some n =>
      by_cases hn : n = 0 ∨ defaultPort? p.scheme = some n
      · rw [writtenPort, if_pos hn]
        rcases hn with rfl | hn
        · simp [Port.of, defaultPort?_ne_zero]
        · have hzero : n ≠ 0 := by
            rintro rfl
            exact defaultPort?_ne_zero p.scheme hn
          simp [Port.of, hn, hzero]
      · rw [writtenPort, if_neg hn]
        simp [Port.of, (not_or.mp hn).1]

/-! ## Brackets -/

theorem isFutureAddress_iff {cs : List Char} : isFutureAddress cs = true ↔
    ∃ version rest, cs = 'v' :: (version ++ '.' :: rest) ∧ version ≠ [] ∧
      (∀ c ∈ version, isHexDigit c = true) ∧ rest ≠ [] := by
  constructor
  · intro hcs
    rw [isFutureAddress.eq_def] at hcs
    split at hcs
    · next cs =>
        split at hcs
        · next version rest hcut =>
            obtain ⟨d, hd, rfl, -⟩ := cutFirst_eq_some hcut
            obtain rfl : d = '.' := by simpa using hd
            simp only [Bool.and_eq_true, Bool.not_eq_true', List.isEmpty_eq_false_iff,
              List.all_eq_true] at hcs
            exact ⟨version, rest, rfl, hcs.1.1, hcs.1.2, hcs.2⟩
        · cases hcs
    · cases hcs
  · rintro ⟨version, rest, rfl, hversion, hdigits, hrest⟩
    have hdot : '.' ∉ version := fun hmem => absurd (hdigits _ hmem) (by decide)
    have hcut : cutFirst (· == '.') (version ++ '.' :: rest) = some (version, rest) :=
      cutFirst_append rfl (beq_of_not_mem hdot)
    simpa [isFutureAddress, hcut, hversion, hrest] using hdigits

/-- Lowering an address of a later version in front of its zone gives one again. -/
theorem isFutureAddress_lower {cs zone : List Char} (hcs : isFutureAddress (cs ++ zone) = true)
    (hzone : ∀ c, zone.head? = some c → c = '%') : isFutureAddress (lower cs ++ zone) = true := by
  obtain ⟨version, rest, hall, hversion, hdigits, hrest⟩ := isFutureAddress_iff.mp hcs
  have hfront : ∀ c ∈ 'v' :: (version ++ ['.']), c.toNat < 128 ∧ c ≠ '%' := by
    intro c hc
    simp only [List.mem_cons, List.mem_append, List.not_mem_nil, or_false] at hc
    rcases hc with rfl | hc | rfl
    · decide
    · refine ⟨toNat_of_isHexDigit (hdigits c hc), ?_⟩
      rintro rfl
      exact absurd (hdigits _ hc) (by decide)
    · decide
  obtain ⟨tail, rfl, rfl⟩ : ∃ tail, cs = 'v' :: (version ++ ['.']) ++ tail ∧
      rest = tail ++ zone := by
    have hboth : cs ++ zone = 'v' :: (version ++ ['.']) ++ rest := by
      rw [hall]
      simp
    rcases List.append_eq_append_iff.mp hboth with ⟨extra, hextra, htail⟩ | ⟨tail, hcs, htail⟩
    · cases extra with
      | nil => exact ⟨[], by simpa using hextra.symm, by simpa using htail.symm⟩
      | cons c extra =>
          have hc : c = '%' := hzone c (by rw [htail]; rfl)
          exact absurd hc (hfront c (by rw [hextra]; simp)).2
    · exact ⟨tail, hcs, htail⟩
  have hmap : ('v' :: (version ++ ['.'])).map Char.toLower =
      'v' :: (version.map Char.toLower ++ ['.']) := by
    simp
  refine isFutureAddress_iff.mpr ⟨version.map Char.toLower,
    lowerAfter (('v' :: (version ++ ['.'])).reverse ++ []) tail ++ zone, ?_, ?_, ?_, ?_⟩
  · rw [lower, lowerAfter_ascii fun c hc => (hfront c hc).1, hmap]
    simp
  · simpa using hversion
  · intro c hc
    obtain ⟨d, hd, rfl⟩ := List.mem_map.mp hc
    exact (hexDigit_of_toLower (hdigits d hd)).1
  · simpa using hrest

theorem colon_mem_of_isVersion6 {cs : List Char} (hcs : isVersion6 cs = true) : ':' ∈ cs := by
  by_contra hcolon
  have hfront : ':' ∉ cs.takeWhile (· ≠ '%') := fun hmem =>
    hcolon ((List.takeWhile_sublist _).subset hmem)
  have hpieces : pieces (· == ':') (cs.takeWhile (· ≠ '%')) = [cs.takeWhile (· ≠ '%')] :=
    pieces_of_forall (beq_of_not_mem hfront)
  simp only [isVersion6, hpieces, List.length_singleton] at hcs
  simp at hcs

/-- A host without a colon that is allowed between brackets still is in lower case. -/
theorem checkBracketed_lower (hcolon : ':' ∉ (cutHost p.authority).1)
    (hraw : checkBracketed (cutHost p.authority).1 = .ok ()) :
    checkBracketed (lower p.hostname) = .ok () := by
  have hfuture : isFutureAddress (cutHost p.authority).1 = true := by
    rw [checkBracketed] at hraw
    split at hraw
    · split at hraw
      · assumption
      · cases hraw
    · split at hraw
      · cases hraw
      · split at hraw
        · next hversion => exact absurd (colon_mem_of_isVersion6 hversion) hcolon
        · cases hraw
  have hlower : isFutureAddress (lower p.hostname) = true := by
    have hall := List.takeWhile_append_dropWhile (p := (· ≠ '%')) (l := (cutHost p.authority).1)
    rw [← hall] at hfuture
    have hhost : isFutureAddress p.hostname = true :=
      isFutureAddress_lower hfuture fun c hc => by
        simpa using head?_dropWhile _ _ hc
    rw [← List.append_nil p.hostname] at hhost
    simpa using isFutureAddress_lower hhost (by simp)
  obtain ⟨version, rest, hall, -⟩ := isFutureAddress_iff.mp hlower
  have hhead : (lower p.hostname).head? = some 'v' := by rw [hall]; rfl
  rw [checkBracketed, if_pos hhead, if_pos hlower]

theorem eq_cutHost_of_bracketedHost {authority host : List Char}
    (hhost : bracketedHost authority = .ok host) : host = (cutHost authority).1 := by
  rw [bracketedHost] at hhost
  rw [cutHost]
  simp only at hhost ⊢
  split at hhost
  · next inside hcut =>
      rw [hcut]
      split at hhost
      · exact (Except.ok.inj hhost).symm
      · cases hhost
  · cases hhost
  · next hcut =>
      rw [hcut]
      exact (Except.ok.inj hhost).symm

theorem checkBrackets_eq_ok {authority : List Char} (h : checkBrackets authority = .ok ()) :
    ('[' ∈ authority ↔ ']' ∈ authority) ∧
      ('[' ∈ authority → ∃ host, bracketedHost authority = .ok host ∧
        checkBracketed host = .ok ()) := by
  rw [checkBrackets] at h
  split at h
  · cases h
  · next hsame =>
      have hiff : '[' ∈ authority ↔ ']' ∈ authority := by
        simp only [bne_iff_ne, ne_eq, not_not] at hsame
        rw [← List.contains_iff_mem, hsame, List.contains_iff_mem]
      refine ⟨hiff, fun hmem => ?_⟩
      rw [if_pos (List.contains_iff_mem.mpr hmem)] at h
      exact bind_eq_ok.mp h

theorem mem_userText_iff {user password : List Char} (huser : user = [] → password = [])
    (hcolon : c ≠ ':') (hat : c ≠ '@') : c ∈ userText user password ↔ c ∈ user ++ password := by
  cases user with
  | nil => simp [userText, huser rfl]
  | cons d user =>
      cases password with
      | nil => simp [userText, delimited, hat]
      | cons e password => simp [userText, delimited, hat, hcolon]

theorem bracketedHost_settled (hq : q.authority = settledAuthority p port)
    (hcolon : ':' ∉ (cutHost p.authority).1) (hbracket : '[' ∉ (cutHost p.authority).1) :
    bracketedHost q.authority = .ok (lower p.hostname) := by
  have hno : '[' ∉ hostAndPort q.authority := by
    rw [hostAndPort_settled hq, List.mem_append, not_or,
      mem_hostname_iff (isCaseless_delimiters (by decide))]
    exact ⟨hbracket, not_mem_portText (by decide) (by decide)⟩
  have hcut : cutFirst (· == '[') (hostAndPort q.authority) = none :=
    cutFirst_eq_none.mpr (beq_of_not_mem hno)
  rw [bracketedHost, hcut, ← cutHost_of_no_bracket hno, cutHost_settled hq hcolon hbracket]

theorem password_eq_nil (huser : p.username? ≠ some []) (hempty : p.user.1 = []) :
    p.user.2 = [] := by
  rw [user_eq] at hempty ⊢
  cases hname : p.username? with
  | none =>
      rw [Parts.username?, Option.map_eq_none_iff] at hname
      simp [Parts.password?, hname]
  | some user =>
      rw [hname] at huser hempty
      exact absurd (congrArg some hempty) huser

/-- What is left is accepted if its brackets are balanced. -/
theorem checkBrackets_settled_iff (hq : q.authority = settledAuthority p port)
    (huser : p.username? ≠ some []) (hcolon : ':' ∉ (cutHost p.authority).1)
    (hbracket : '[' ∉ (cutHost p.authority).1) (hp : checkBrackets p.authority = .ok ()) :
    checkBrackets q.authority = .ok () ↔ ('[' ∈ p.user.1 ++ p.user.2 ↔
      ']' ∈ p.user.1 ++ p.user.2 ∨ ']' ∈ (cutHost p.authority).1) := by
  have hnamed : p.user.1 = [] → p.user.2 = [] := password_eq_nil huser
  have hmem {c : Char} (hc : c ∈ "[]".toList) :
      c ∈ q.authority ↔ c ∈ p.user.1 ++ p.user.2 ∨ c ∈ (cutHost p.authority).1 := by
    have hcases : c = '[' ∨ c = ']' := by simpa using hc
    have hcaseless : IsCaseless c := isCaseless_delimiters (by
      rcases hcases with rfl | rfl <;> decide)
    have hne : c ≠ ':' ∧ c ≠ '@' ∧ c.isDigit = false := by
      rcases hcases with rfl | rfl <;> decide
    rw [hq, settledAuthority_eq, List.mem_append, List.mem_append,
      mem_userText_iff hnamed hne.1 hne.2.1, mem_hostname_iff hcaseless,
      iff_false_intro (not_mem_portText hne.2.2 hne.1), or_false]
  have hopening : '[' ∈ q.authority ↔ '[' ∈ p.user.1 ++ p.user.2 := by
    rw [hmem (by decide), iff_false_intro hbracket, or_false]
  have hclosing := hmem (c := ']') (by decide)
  constructor
  · intro hok
    rw [← hopening, ← hclosing]
    exact (checkBrackets_eq_ok hok).1
  · intro hbalanced
    rw [← hopening, ← hclosing] at hbalanced
    have hsame : q.authority.contains '[' = q.authority.contains ']' := by
      rw [Bool.eq_iff_iff, List.contains_iff_mem, List.contains_iff_mem, hbalanced]
    rw [checkBrackets, hsame, bne_self_eq_false, if_neg Bool.false_ne_true]
    split
    · next hcontains =>
        have hinfo : '[' ∈ p.user.1 ++ p.user.2 := by
          rwa [← hopening, hbalanced, ← List.contains_iff_mem]
        have hraw : '[' ∈ p.authority :=
          mem_userText ((mem_userText_iff hnamed (by decide) (by decide)).mpr hinfo)
        obtain ⟨host, hbracketed, hok⟩ := (checkBrackets_eq_ok hp).2 hraw
        rw [eq_cutHost_of_bracketedHost hbracketed] at hok
        rw [bracketedHost_settled hq hcolon hbracket, ok_bind]
        exact checkBracketed_lower hcolon hok
    · rfl

/-- An authority survives exactly if nothing of it is lost. -/
theorem server_settled_iff (hq : q.authority = settledAuthority p port)
    (hscheme : q.scheme = p.scheme) (hport : p.port = .of port)
    (hp : checkBrackets p.authority = .ok ()) :
    (checkBrackets q.authority = .ok () ∧ q.server = p.server) ↔ p.HasLastingServer := by
  rw [Parts.server, Parts.server, Server.mk.injEq, user_settled_iff hq, hostname_settled_iff hq]
  constructor
  · rintro ⟨hok, ⟨hcolon, hbracket⟩, hsame, husername, hpassword⟩
    exact ⟨husername, hpassword,
      (effectivePort_settled_iff hq hscheme hport hcolon hbracket).mp hsame, hcolon, hbracket,
      (checkBrackets_settled_iff hq husername hcolon hbracket hp).mp hok⟩
  · rintro ⟨husername, hpassword, hzero, hcolon, hbracket, hbrackets⟩
    exact ⟨(checkBrackets_settled_iff hq husername hcolon hbracket hp).mpr hbrackets,
      ⟨hcolon, hbracket⟩,
      (effectivePort_settled_iff hq hscheme hport hcolon hbracket).mpr hzero, husername, hpassword⟩

end LinkShelf.Url
