import LinkShelf.Locator
import LinkShelf.Proofs.Number.Digits
import LinkShelf.Proofs.Text.Lower
import LinkShelf.Proofs.Text.Pieces
import LinkShelf.Proofs.Url.Layout

/-!
Authorities: the user in front of the last at sign, the host, and the port after a colon. Main
statement: an authority stays as it is exactly if it is written in the settled way
(`settledAuthority_eq_self_iff`).
-/

namespace LinkShelf.Url

open Text

variable {authority place : List Char} {p : Parts} {c : Char}

/-! ## Parts of an authority -/

/-- The user information in front of a place. -/
def userText (user password : List Char) : List Char :=
  if user.isEmpty then [] else user ++ delimited ':' password ++ ['@']

/-- The port after a host. -/
def portText : Option Nat → List Char
  | none => []
  | some n => ':' :: Nat.toDigits 10 n

/-- The port with a number, or none. -/
def Port.of : Option Nat → Port
  | none => .missing
  | some n => .number n

theorem Port.of_inj {m n : Option Nat} (h : Port.of m = .of n) : m = n := by
  cases m <;> cases n <;> simp_all [Port.of]

theorem Port.cases (port : Port) : port = .unreadable ∨ ∃ n, port = .of n := by
  cases port with
  | missing => exact .inr ⟨none, rfl⟩
  | number n => exact .inr ⟨some n, rfl⟩
  | unreadable => exact .inl rfl

/-- The port that is written for a scheme: not the one that it implies, and not zero. -/
def writtenPort (scheme : List Char) : Option Nat → Option Nat
  | none => none
  | some n => if n = 0 ∨ defaultPort? scheme = some n then none else some n

theorem userText_append (user password rest : List Char) :
    (if user.isEmpty then rest
      else user ++ (if password.isEmpty then [] else ':' :: password) ++ '@' :: rest) =
      userText user password ++ rest := by
  rw [userText, delimited]
  split
  · rfl
  · simp

theorem settledAuthority_eq (p : Parts) (port : Option Nat) :
    settledAuthority p port =
      userText p.user.1 p.user.2 ++ (lower p.hostname ++ portText (writtenPort p.scheme port)) := by
  rw [← userText_append]
  unfold settledAuthority
  cases port with
  | none => simp only [writtenPort, portText, List.append_nil]
  | some n =>
      by_cases hn : n = 0 ∨ defaultPort? p.scheme = some n
      · simp only [writtenPort, if_pos hn, portText, List.append_nil]
      · simp only [writtenPort, if_neg hn, portText]

theorem userInfo_cases (p : Parts) :
    ('@' ∉ p.authority ∧ hostAndPort p.authority = p.authority ∧ p.user = ([], [])) ∨
      ∃ info place, p.authority = info ++ '@' :: place ∧ '@' ∉ place ∧
        hostAndPort p.authority = place ∧ p.user = cutAt ':' info := by
  rw [hostAndPort, Parts.user]
  cases hcut : cutLast (· == '@') p.authority with
  | none =>
      refine .inl ⟨fun hmem => ?_, rfl, rfl⟩
      simpa using cutLast_eq_none.mp hcut '@' hmem
  | some pair =>
      obtain ⟨info, place⟩ := pair
      obtain ⟨d, hd, hauthority, hplace⟩ := cutLast_eq_some hcut
      obtain rfl : d = '@' := by simpa using hd
      refine .inr ⟨info, place, hauthority, fun hmem => ?_, rfl, rfl⟩
      simpa using hplace '@' hmem

theorem cutHost_of_no_bracket (hplace : '[' ∉ hostAndPort authority) :
    cutHost authority = cutAt ':' (hostAndPort authority) := by
  have hcut : cutFirst (· == '[') (hostAndPort authority) = none :=
    cutFirst_eq_none.mpr (beq_of_not_mem hplace)
  rw [cutHost, hcut]

theorem cutHost_of_bracket {front inside : List Char} (hfront : '[' ∉ front)
    (hplace : hostAndPort authority = front ++ '[' :: inside) :
    cutHost authority = ((cutAt ']' inside).1, (cutAt ':' (cutAt ']' inside).2).2) := by
  have hcut : cutFirst (· == '[') (front ++ '[' :: inside) = some (front, inside) :=
    cutFirst_append rfl (beq_of_not_mem hfront)
  rw [cutHost, hplace, hcut]

theorem mem_cutHost (hc : c ∈ (cutHost authority).1 ∨ c ∈ (cutHost authority).2) :
    c ∈ hostAndPort authority := by
  by_cases hbracket : '[' ∈ hostAndPort authority
  · obtain ⟨front, inside, hplace, hfront⟩ := List.eq_append_cons_of_mem hbracket
    rw [cutHost_of_bracket hfront hplace] at hc
    rw [hplace]
    rcases hc with hc | hc
    · simp [(mem_cutAt_fst hc).1]
    · simp [mem_cutAt_snd (mem_cutAt_snd hc)]
  · rw [cutHost_of_no_bracket hbracket] at hc
    rcases hc with hc | hc
    · exact (mem_cutAt_fst hc).1
    · exact mem_cutAt_snd hc

theorem mem_hostAndPort (hc : c ∈ hostAndPort authority) : c ∈ authority := by
  rw [hostAndPort] at hc
  cases hcut : cutLast (· == '@') authority with
  | none => rwa [hcut] at hc
  | some pair =>
      obtain ⟨info, place⟩ := pair
      obtain ⟨d, -, hauthority, -⟩ := cutLast_eq_some hcut
      rw [hcut] at hc
      rw [hauthority]
      simp only at hc
      simp [hc]

theorem at_not_mem_hostAndPort (authority : List Char) : '@' ∉ hostAndPort authority := by
  rw [hostAndPort]
  cases hcut : cutLast (· == '@') authority with
  | none =>
      intro hmem
      simpa using cutLast_eq_none.mp hcut '@' hmem
  | some pair =>
      obtain ⟨info, place⟩ := pair
      obtain ⟨d, -, -, hplace⟩ := cutLast_eq_some hcut
      intro hmem
      simpa using hplace '@' hmem

theorem mem_hostname (hc : c ∈ p.hostname) :
    c ∈ (cutHost p.authority).1 ∨ isLowered c = true := by
  rw [Parts.hostname, List.mem_append] at hc
  rcases hc with hc | hc
  · exact (mem_lower hc).imp_left fun h => (List.takeWhile_sublist _).subset h
  · exact .inl ((List.dropWhile_sublist _).subset hc)

theorem mem_lower_hostname (hc : c ∈ lower p.hostname) :
    c ∈ (cutHost p.authority).1 ∨ isLowered c = true :=
  (mem_lower hc).elim mem_hostname .inr

theorem count_hostname (hc : IsCaseless c) :
    (lower p.hostname).count c = (cutHost p.authority).1.count c := by
  rw [count_lower hc, Parts.hostname, List.count_append, count_lower hc, ← List.count_append,
    List.takeWhile_append_dropWhile]

theorem mem_hostname_iff (hc : IsCaseless c) :
    c ∈ lower p.hostname ↔ c ∈ (cutHost p.authority).1 := by
  rw [← List.count_pos_iff, count_hostname hc, List.count_pos_iff]

theorem isCaseless_delimiters (hc : c ∈ "@:[]/?#%".toList) : IsCaseless c := by
  have hall : ∀ c ∈ "@:[]/?#%".toList, IsCaseless c := by decide
  exact hall c hc

/-! ## Reading a settled authority -/

section Reading

variable {user password host : List Char} {port : Option Nat}

theorem isDigit_of_mem_portText (hc : c ∈ portText port) : c = ':' ∨ c.isDigit = true := by
  cases port with
  | none => simp [portText] at hc
  | some n => exact (List.mem_cons.mp hc).imp_right Number.isDigit_of_mem_toDigits

theorem not_mem_portText (hc : c.isDigit = false) (hcolon : c ≠ ':') : c ∉ portText port := by
  intro hmem
  rcases isDigit_of_mem_portText hmem with h | h
  · exact hcolon h
  · simp [hc] at h

theorem cutLast_userText (hhost : '@' ∉ host) :
    cutLast (· == '@') (userText user password ++ (host ++ portText port)) =
      if user.isEmpty then none
      else some (user ++ delimited ':' password, host ++ portText port) := by
  have hmark : '@' ∉ host ++ portText port := by
    rw [List.mem_append, not_or]
    exact ⟨hhost, not_mem_portText (by decide) (by decide)⟩
  have hplace : ∀ d ∈ host ++ portText port, (d == '@') = false := beq_of_not_mem hmark
  cases hempty : user.isEmpty with
  | true =>
      rw [userText, hempty]
      exact cutLast_eq_none.mpr hplace
  | false =>
      simp only [userText, hempty, Bool.false_eq_true, if_false, List.append_assoc,
        List.singleton_append]
      rw [← List.append_assoc]
      exact cutLast_append rfl hplace

theorem hostAndPort_userText (hhost : '@' ∉ host) :
    hostAndPort (userText user password ++ (host ++ portText port)) = host ++ portText port := by
  rw [hostAndPort, cutLast_userText hhost]
  cases hempty : user.isEmpty with
  | true => simp [userText, hempty]
  | false => rfl

theorem user_userText {p : Parts} (huser : ':' ∉ user) (hhost : '@' ∉ host)
    (hp : p.authority = userText user password ++ (host ++ portText port)) :
    p.user = if user.isEmpty then ([], []) else (user, password) := by
  rw [Parts.user, hp, cutLast_userText hhost]
  cases hempty : user.isEmpty with
  | true => rfl
  | false => exact cutAt_delimited huser

theorem cutHost_userText (hat : '@' ∉ host) (hcolon : ':' ∉ host) (hbracket : '[' ∉ host) :
    cutHost (userText user password ++ (host ++ portText port)) =
      (host, (portText port).drop 1) := by
  have hplace : hostAndPort (userText user password ++ (host ++ portText port)) =
      host ++ portText port := hostAndPort_userText hat
  have hno : '[' ∉ hostAndPort (userText user password ++ (host ++ portText port)) := by
    rw [hplace, List.mem_append, not_or]
    exact ⟨hbracket, not_mem_portText (by decide) (by decide)⟩
  rw [cutHost_of_no_bracket hno, hplace]
  cases port with
  | none => simpa [portText] using cutAt_of_not_mem hcolon
  | some n => exact cutAt_append hcolon

theorem port_of_cutHost {p : Parts} {host : List Char} (hport : ∀ n, port = some n → n ≤ 65535)
    (hp : cutHost p.authority = (host, (portText port).drop 1)) : p.port = .of port := by
  cases port with
  | none => simp [Parts.port, hp, portText, Port.of]
  | some n =>
      have hn := hport n rfl
      have hdigits : ∀ c ∈ Nat.toDigits 10 n, c.isDigit = true :=
        fun c hc => Number.isDigit_of_mem_toDigits hc
      have hlength : (Nat.toDigits 10 n).length ≤ 5 :=
        (Nat.length_toDigits_le_iff (by decide) (by decide)).mpr (by omega)
      have hvalue :
          (Nat.toDigits 10 n).foldl (fun n c => 10 * n + (c.toNat - '0'.toNat)) 0 = n := by
        have hread := Number.numberOf_toDigits n
        rw [Number.numberOf_eq_ofDigitChars hdigits] at hread
        exact hread
      have hempty : (Nat.toDigits 10 n).isEmpty = false := by
        simp [Nat.toDigits_ne_nil]
      have hshort : (Nat.toDigits 10 n).length ≤ maxPortDigits := by
        rw [maxPortDigits]
        omega
      unfold Parts.port
      simp only [hp, portText, List.drop_succ_cons, List.drop_zero, hempty, hshort, hvalue, hn,
        List.all_eq_true.mpr hdigits, decide_true, Bool.and_self, Bool.false_eq_true, if_true,
        if_false, Port.of]

theorem hostname_of_lower {p : Parts} (hp : (cutHost p.authority).1 = host)
    (hlower : lower host = host) : p.hostname = host := by
  have hall : ∀ c ∈ host, IsLower c := fun c hc => isLower_of_mem_lower (hlower.symm ▸ hc)
  have htake : lower (host.takeWhile (· ≠ '%')) = host.takeWhile (· ≠ '%') :=
    lower_of_isLower fun c hc => hall c ((List.takeWhile_sublist _).subset hc)
  rw [Parts.hostname, hp, htake, List.takeWhile_append_dropWhile]

end Reading

/-! ## Settled authorities -/

/-- Whether an authority is written in the settled way: a user only with a name, a host in lower
case that is not taken for anything else, and a port only where the scheme implies another one. -/
def IsSettledAuthority (scheme authority : List Char) : Prop :=
  ∃ user password host port, authority = userText user password ++ (host ++ portText port) ∧
    ':' ∉ user ∧ '@' ∉ host ∧ ':' ∉ host ∧ '[' ∉ host ∧ lower host = host ∧
    ∀ n, port = some n → n ≠ 0 ∧ n ≤ 65535 ∧ defaultPort? scheme ≠ some n

theorem colon_not_mem_user (p : Parts) : ':' ∉ p.user.1 := by
  rcases userInfo_cases p with ⟨-, -, huser⟩ | ⟨info, place, -, -, -, huser⟩
  · simp [huser]
  · rw [huser]
    exact fun hmem => (mem_cutAt_fst hmem).2 rfl

theorem at_not_mem_hostname (p : Parts) : '@' ∉ lower p.hostname := by
  rw [mem_hostname_iff (isCaseless_delimiters (by decide))]
  exact fun hmem => at_not_mem_hostAndPort p.authority (mem_cutHost (.inl hmem))

theorem le_of_port {p : Parts} {n : Nat} (hport : p.port = .number n) : n ≤ 65535 := by
  unfold Parts.port at hport
  simp only at hport
  split at hport
  · simp at hport
  · split at hport
    · split at hport
      · next hle => simpa using (Port.number.inj hport) ▸ hle
      · simp at hport
    · simp at hport

theorem writtenPort_eq_some {scheme : List Char} {port : Option Nat} {n : Nat}
    (hport : writtenPort scheme port = some n) :
    port = some n ∧ n ≠ 0 ∧ defaultPort? scheme ≠ some n := by
  cases port with
  | none => simp [writtenPort] at hport
  | some m =>
      rw [writtenPort] at hport
      split at hport
      · simp at hport
      · next hm =>
          obtain rfl : m = n := by simpa using hport
          rw [not_or] at hm
          exact ⟨rfl, hm⟩

theorem settledAuthority_eq_self_iff {p : Parts} {port : Option Nat} (hport : p.port = .of port) :
    settledAuthority p port = p.authority ↔ IsSettledAuthority p.scheme p.authority := by
  constructor
  · intro hsame
    rw [settledAuthority_eq] at hsame
    have hplace : hostAndPort p.authority =
        lower p.hostname ++ portText (writtenPort p.scheme port) := by
      rw [← hsame, hostAndPort_userText (at_not_mem_hostname p)]
    have hbracket : '[' ∉ hostAndPort p.authority := by
      intro hmem
      obtain ⟨front, inside, hinside, hfront⟩ := List.eq_append_cons_of_mem hmem
      have hinner : (lower p.hostname).count '[' ≤ inside.count '[' :=
        calc (lower p.hostname).count '[' = (cutHost p.authority).1.count '[' :=
            count_hostname (isCaseless_delimiters (by decide))
          _ = (cutAt ']' inside).1.count '[' := by rw [cutHost_of_bracket hfront hinside]
          _ ≤ inside.count '[' := (sublist_cutAt_fst ']' inside).count_le '['
      have hports : (portText (writtenPort p.scheme port)).count '[' = 0 :=
        List.count_eq_zero.mpr (not_mem_portText (by decide) (by decide))
      have houter := congrArg (List.count '[') (hinside.symm.trans hplace)
      simp only [List.count_append, List.count_cons_self, hports] at houter
      omega
    have hcolon : ':' ∉ lower p.hostname := by
      rw [mem_hostname_iff (isCaseless_delimiters (by decide)), cutHost_of_no_bracket hbracket]
      exact fun hmem => (mem_cutAt_fst hmem).2 rfl
    refine ⟨p.user.1, p.user.2, lower p.hostname, writtenPort p.scheme port, hsame.symm,
      colon_not_mem_user p, at_not_mem_hostname p, hcolon, ?_, lower_lower _, ?_⟩
    · intro hmem
      rw [hplace] at hbracket
      exact hbracket (List.mem_append_left _ hmem)
    · intro n hn
      obtain ⟨rfl, hzero, hdefault⟩ := writtenPort_eq_some hn
      exact ⟨hzero, le_of_port hport, hdefault⟩
  · rintro ⟨user, password, host, written, hp, huser, hat, hcolon, hbracket, hlower, hwritten⟩
    have hcut : cutHost p.authority = (host, (portText written).drop 1) := by
      rw [hp, cutHost_userText hat hcolon hbracket]
    have hhost : p.hostname = host := hostname_of_lower (by rw [hcut]) hlower
    have hsame : port = written := by
      have hread := port_of_cutHost (fun n hn => (hwritten n hn).2.1) hcut
      exact Port.of_inj (hport.symm.trans hread)
    have hkeep : writtenPort p.scheme written = written := by
      cases written with
      | none => rfl
      | some n =>
          obtain ⟨hzero, -, hdefault⟩ := hwritten n rfl
          rw [writtenPort, if_neg (not_or.mpr ⟨hzero, hdefault⟩)]
    have htext : userText p.user.1 p.user.2 = userText user password := by
      rw [user_userText huser hat hp]
      cases hempty : user.isEmpty with
      | true => simp [userText, hempty]
      | false => rfl
    rw [settledAuthority_eq, hhost, hlower, hsame, hkeep, htext, hp]

theorem mem_userText {p : Parts} {c : Char} (hc : c ∈ userText p.user.1 p.user.2) :
    c ∈ p.authority := by
  rcases userInfo_cases p with ⟨-, -, huser⟩ | ⟨info, place, hauthority, -, -, huser⟩
  · simp [huser, userText] at hc
  · have hinfo : c ∈ info ∨ c = '@' := by
      rw [huser, userText] at hc
      split at hc
      · simp at hc
      · simp only [List.mem_append, List.mem_singleton] at hc
        rcases hc with (hc | hc) | rfl
        · exact .inl (mem_cutAt_fst hc).1
        · rcases cutAt_cases ':' info with ⟨-, hcut⟩ | ⟨before, after, rfl, -, hcut⟩
          · simp [hcut, delimited] at hc
          · rw [hcut] at hc
            rcases mem_delimited hc with rfl | hc
            · simp
            · simp [hc]
        · exact .inr rfl
    rw [hauthority]
    rcases hinfo with hc | rfl
    · simp [hc]
    · simp

/-- What a settled authority is written with. -/
theorem mem_settledAuthority {p : Parts} {port : Option Nat} {c : Char}
    (hc : c ∈ settledAuthority p port) :
    c ∈ p.authority ∨ isLowered c = true ∨ c.isDigit = true ∨ c = ':' := by
  rw [settledAuthority_eq, List.mem_append, List.mem_append] at hc
  rcases hc with hc | hc | hc
  · exact .inl (mem_userText hc)
  · rcases mem_lower_hostname hc with hc | hc
    · exact .inl (mem_hostAndPort (mem_cutHost (.inl hc)))
    · exact .inr (.inl hc)
  · rcases isDigit_of_mem_portText hc with hc | hc
    · exact .inr (.inr (.inr hc))
    · exact .inr (.inr (.inl hc))

end LinkShelf.Url
