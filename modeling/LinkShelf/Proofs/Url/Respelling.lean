import Mathlib.Logic.Relation
import LinkShelf.Proofs.Url.PlainAddress

/-!
Equivalent spellings of plain web addresses. One step of respelling leaves the normal form as it is
(`Respells.normal_eq`), and so does every number of steps, white space around the address, and a
scheme that is left out (`normalize_of_spells`).
-/

namespace LinkShelf.Url

open Text

namespace WebAddress

/-- One step from a spelling of an address to another one. -/
inductive Respells : WebAddress → WebAddress → Prop
  | scheme {a : WebAddress} {name : List Char}
      (hname : name.map Char.toLower = a.scheme.map Char.toLower) :
      Respells a { a with scheme := name }
  | host {a : WebAddress} {name : List Char}
      (hname : name.map Char.toLower = a.host.map Char.toLower) :
      Respells a { a with host := name }
  | portAdded {a : WebAddress} {digits : List Char} (hport : a.port = none)
      (hdigits : ∀ c ∈ digits, c.isDigit = true) (hshort : digits.length ≤ maxPortDigits)
      (hdefault : defaultPort? (a.scheme.map Char.toLower) = some (portNumber digits)) :
      Respells a { a with port := some digits }
  | portRemoved {a : WebAddress} {digits : List Char} (hport : a.port = some digits)
      (hdefault : defaultPort? (a.scheme.map Char.toLower) = some (portNumber digits)) :
      Respells a { a with port := none }
  | path {a : WebAddress} {path : List Char} (hpath : Respelled isPathChar a.path path) :
      Respells a { a with path }
  | query {a : WebAddress} {part other : List Char} (hquery : a.query = some part)
      (hpart : Respelled isQueryChar part other) : Respells a { a with query := some other }
  | fragment {a : WebAddress} {part other : List Char} (hfragment : a.fragment = some part)
      (hpart : Respelled isQueryChar part other) : Respells a { a with fragment := some other }
  | segments {a : WebAddress} {front rest inserted : List Char}
      (hpath : a.path = front ++ '/' :: rest) (hinserted : IsIdle isPathChar inserted) :
      Respells a { a with path := front ++ '/' :: (inserted ++ rest) }
  | slashAdded {a : WebAddress} (hpath : a.path = []) : Respells a { a with path := ['/'] }
  | slashRemoved {a : WebAddress} (hpath : a.path = ['/']) : Respells a { a with path := [] }

/-- The texts that spell an address: its text, or without the scheme where none is seen in the rest,
with or without white space around it. -/
def Spells (a : WebAddress) (cs : List Char) : Prop :=
  ∃ before core after, cs = before ++ (core ++ after) ∧ (∀ c ∈ before, isBlank c = true) ∧
    (∀ c ∈ after, isBlank c = true) ∧
    (core = a.text ∨ (a.scheme.map Char.toLower = "http".toList ∧ core = a.rest ∧
      namesScheme core = false))

variable {a b : WebAddress}

theorem isHostChar_toLower (c : Char) : isHostChar c.toLower = isHostChar c := by
  refine forall_toLower (P := fun c d => isHostChar d = isHostChar c) (fun _ => rfl) ?_ c
  decide

theorem written_of_isIdle {inserted : List Char} (h : IsIdle isPathChar inserted) :
    Written isPathChar inserted := by
  rcases h with rfl | ⟨segment, -, hsegment, -, -, rfl⟩
  · exact .literal (by decide) (.literal (by decide) .nil)
  · exact hsegment.append (.literal (by decide) (.literal (by decide) (.literal (by decide)
      (.literal (by decide) .nil))))

theorem portNumber_of_default {scheme digits : List Char}
    (hdefault : defaultPort? scheme = some (portNumber digits)) :
    0 < portNumber digits ∧ portNumber digits ≤ 65535 := by
  rw [defaultPort?] at hdefault
  split at hdefault
  · have := Option.some.inj hdefault
    omega
  · split at hdefault
    · have := Option.some.inj hdefault
      omega
    · cases hdefault

/-- The spellings of a plain address are plain. -/
theorem Respells.isPlain (h : Respells a b) (ha : a.IsPlain) : b.IsPlain := by
  cases h with
  | scheme hname => exact { ha with scheme := hname ▸ ha.scheme }
  | @host name hname =>
      refine { ha with host := ?_, hostChars := ?_ }
      · rintro rfl
        exact ha.host (List.map_eq_nil_iff.mp hname.symm)
      · intro c hc
        have hmem : c.toLower ∈ a.host.map Char.toLower := hname ▸ List.mem_map_of_mem hc
        obtain ⟨d, hd, hlower⟩ := List.mem_map.mp hmem
        rw [← isHostChar_toLower, ← hlower, isHostChar_toLower]
        exact ha.hostChars d hd
  | portAdded hport hdigits hshort hdefault =>
      refine { ha with port := ?_ }
      rintro digits ⟨⟩
      exact ⟨hdigits, portNumber_of_default hdefault⟩
  | portRemoved => exact { ha with port := nofun }
  | @path path hpath =>
      refine { ha with path := ?_, pathChars := hpath.written (by decide) ha.pathChars }
      rcases ha.path with hempty | hslash
      · rw [hempty] at hpath
        exact absurd rfl hpath.ne_nil
      · exact .inr (hpath.head?_slash hslash)
  | query hquery hpart =>
      refine { ha with query := ?_ }
      rintro part ⟨⟩
      exact hpart.written (by decide) (ha.query _ hquery)
  | fragment hfragment hpart =>
      refine { ha with fragment := ?_ }
      rintro part ⟨⟩
      exact hpart.written (by decide) (ha.fragment _ hfragment)
  | @segments front rest inserted hpath hinserted =>
      have hall := ha.pathChars
      rw [hpath] at hall
      have hfront : Written isPathChar front := Written.of_cut (by decide) hall
      have hrest : Written isPathChar ('/' :: rest) := Written.of_append (by decide) hfront hall
      refine { ha with path := ?_, pathChars := ?_ }
      · have hhead := ha.path
        rw [hpath] at hhead
        right
        cases front with
        | nil => rfl
        | cons c front => simpa using hhead
      · rcases hrest.of_cons with ⟨hslash, hrest⟩ | ⟨hpercent, -⟩
        · exact hfront.append (.literal hslash ((written_of_isIdle hinserted).append hrest))
        · exact absurd hpercent (by decide)
  | slashAdded => exact { ha with path := .inr rfl, pathChars := .literal (by decide) .nil }
  | slashRemoved => exact { ha with path := .inl rfl, pathChars := .nil }

theorem Respells.hasShortPort (h : Respells a b) (ha : a.HasShortPort) : b.HasShortPort := by
  cases h with
  | portAdded hport hdigits hshort hdefault =>
      rintro digits ⟨⟩
      exact hshort
  | portRemoved => exact nofun
  | _ => exact ha

/-- A respelled address has the same normal form. -/
theorem Respells.normal_eq (h : Respells a b) (ha : a.IsPlain) : b.normal = a.normal := by
  cases h with
  | scheme hname => simp only [normal, hname]
  | host hname => simp only [normal, hname]
  | portAdded hport hdigits hshort hdefault =>
      simp only [normal, hport, Option.map_some, Option.map_none, writtenPort, hdefault, or_true,
        if_true]
  | portRemoved hport hdefault =>
      simp only [normal, hport, Option.map_some, Option.map_none, writtenPort, hdefault, or_true,
        if_true]
  | path hpath =>
      have hsame := hpath.decodeUnreserved_eq (by decide) ha.pathChars
      simp only [normal, settledPath, hsame]
  | query hquery hpart =>
      have hsame := hpart.decodeUnreserved_eq (by decide) (ha.query _ hquery)
      simp only [normal, hquery, Option.getD_some, hsame]
  | fragment hfragment hpart =>
      have hsame := hpart.decodeUnreserved_eq (by decide) (ha.fragment _ hfragment)
      simp only [normal, hfragment, Option.getD_some, hsame]
  | @segments front rest inserted hpath hinserted =>
      have hall : Written isPathChar (front ++ '/' :: rest) := hpath ▸ ha.pathChars
      have hfront : Written isPathChar front := Written.of_cut (by decide) hall
      have hslash : (front ++ '/' :: rest).head? = some '/' := by
        rw [← hpath]
        apply ha.path.resolve_left
        intro hempty
        simp [hempty] at hpath
      have hsame := settledPath_insert (by decide) hfront hinserted hslash
      simp only [normal, hsame, hpath]
  | slashAdded hpath =>
      have hslash : settledPath ['/'] = ['/'] := by decide
      simp only [normal, hpath, hslash, settledPath_nil]
  | slashRemoved hpath =>
      have hslash : settledPath ['/'] = ['/'] := by decide
      simp only [normal, hpath, hslash, settledPath_nil]

/-- Any number of steps. -/
theorem normal_of_respellings (h : Relation.ReflTransGen Respells a b) (ha : a.IsPlain)
    (hshort : a.HasShortPort) : b.IsPlain ∧ b.HasShortPort ∧ b.normal = a.normal := by
  induction h with
  | refl => exact ⟨ha, hshort, rfl⟩
  | tail _ hstep ih =>
      obtain ⟨hplain, hport, hsame⟩ := ih
      exact ⟨hstep.isPlain hplain, hstep.hasShortPort hport,
        (hstep.normal_eq hplain).trans hsame⟩

theorem IsPlain.not_blank_text (ha : a.IsPlain) : ∀ c ∈ a.text, isBlank c = false := by
  intro c hc
  simp only [text, webText, List.mem_append, List.mem_cons] at hc
  rcases hc with hc | rfl | rfl | rfl | hc
  · have halpha := isAlpha_of_mem_webScheme ha.scheme c hc
    exact (plain_of_isGraphic (isGraphic_of_isAlphanum (by simp [Char.isAlphanum, halpha]))).1
  · decide
  · decide
  · decide
  · exact (plain_of_isGraphic (ha.isGraphic_rest c hc)).1

theorem IsPlain.rest_ne_nil (ha : a.IsPlain) : a.rest ≠ [] := by
  simp [rest, place, ha.host]

theorem IsPlain.normalizeStripped_text (ha : a.IsPlain) (hshort : a.HasShortPort) :
    normalizeStripped a.text = .ok a.normal := by
  have hstrip : strip a.text = a.text := by
    rw [text, strip_webText ha.scheme, ha.stripEnd_rest]
  rw [← ha.normalize_text hshort, normalize, hstrip]

/-- Without its scheme an address has the same normal form. -/
theorem IsPlain.normalizeStripped_rest (ha : a.IsPlain) (hshort : a.HasShortPort)
    (hscheme : a.scheme.map Char.toLower = "http".toList) (hrest : namesScheme a.rest = false) :
    normalizeStripped a.rest = .ok a.normal := by
  have hhttp : "http".toList.map Char.toLower ∈ webSchemes := by decide
  have hplain : IsPlain { a with scheme := "http".toList } := { ha with scheme := hhttp }
  have hsame : normal { a with scheme := "http".toList } = a.normal := by
    simp only [normal, hscheme]
    rfl
  have hempty : a.rest.isEmpty = false := by
    simpa using ha.rest_ne_nil
  rw [← hsame, ← hplain.normalizeStripped_text hshort, text, normalizeStripped_webText hhttp,
    normalizeStripped]
  simp only [hempty, hrest, Bool.false_eq_true, if_false]
  exact if_pos (isWeb_webText hhttp a.rest)

/-- All spellings of an address have its normal form. -/
theorem normalize_of_spells (ha : a.IsPlain) (hshort : a.HasShortPort) {cs : List Char}
    (hcs : a.Spells cs) : normalize cs = .ok a.normal := by
  obtain ⟨before, core, after, rfl, hbefore, hafter, rfl | ⟨hscheme, rfl, hrest⟩⟩ := hcs
  · have hne : a.text ≠ [] := by simp [text, webText]
    rw [normalize, strip_append hbefore hafter ha.not_blank_text hne,
      ha.normalizeStripped_text hshort]
  · have hblank : ∀ c ∈ a.rest, isBlank c = false := fun c hc =>
      (plain_of_isGraphic (ha.isGraphic_rest c hc)).1
    rw [normalize, strip_append hbefore hafter hblank ha.rest_ne_nil,
      ha.normalizeStripped_rest hshort hscheme hrest]

end WebAddress

end LinkShelf.Url
