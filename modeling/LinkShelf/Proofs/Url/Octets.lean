import Mathlib.Logic.Relation
import LinkShelf.Proofs.Text.Encoding
import LinkShelf.Proofs.Url.PlainAddress

/-!
The octets that a text with escapes stands for. Main statements: all spellings of a text stand for
the same octets and are decoded alike (`Spelling.octets_eq`, `Spelling.decodeUnreserved_eq`), and
what a text is decoded to is one of its spellings, the settled one (`decodeUnreserved_settles`).
-/

namespace LinkShelf.Url

open Text

/-- Whether every percent sign is followed by two hexadecimal digits. -/
def HasWholeEscapes (cs : List Char) : Prop :=
  ∀ front rest, cs = front ++ '%' :: rest → ∃ a b more, rest = a :: b :: more ∧
    isHexDigit a = true ∧ isHexDigit b = true

/-- What stands for itself wherever it is written. -/
def isLiteral (c : Char) : Bool := c ≠ '%'

/-- `HasWholeEscapes` as it is read from the front. -/
def areEscapesWhole : List Char → Bool
  | '%' :: a :: b :: rest => isHexDigit a && isHexDigit b && areEscapesWhole rest
  | c :: rest => isLiteral c && areEscapesWhole rest
  | [] => true

/-- Two spellings of one text: on the way from one to the other, escapes of unreserved characters
are put in or undone, and the letters of escapes change their case. -/
def Spelling : List Char → List Char → Prop := Relation.EqvGen (Respelled isLiteral)

def hexValue (c : Char) : Nat := "0123456789abcdef".toList.idxOf c.toLower

/-- The octet that an escape of two digits writes. -/
def octet (a b : Char) : UInt8 := .ofNat (16 * hexValue a + hexValue b)

/-- The octets that a text stands for. What is not part of an escape is encoded in UTF-8. -/
def octets : List Char → List UInt8
  | '%' :: a :: b :: rest =>
    if isHexDigit a && isHexDigit b then octet a b :: octets rest
    else String.utf8EncodeChar '%' ++ octets (a :: b :: rest)
  | c :: rest => String.utf8EncodeChar c ++ octets rest
  | [] => []

/-! ## Whole escapes -/

section WholeEscapes

variable {cs : List Char}

theorem isLiteral_of_isUnreserved {c : Char} (hc : isUnreserved c = true) :
    isLiteral c = true := by
  rw [isLiteral, decide_eq_true_eq]
  exact ne_percent rfl hc

theorem HasWholeEscapes.of_append (front : List Char) {rest : List Char}
    (hall : HasWholeEscapes (front ++ rest)) : HasWholeEscapes rest := by
  rintro before after rfl
  exact hall (front ++ before) after (List.append_assoc ..).symm

theorem HasWholeEscapes.written : {cs : List Char} → HasWholeEscapes cs → Written isLiteral cs
  | [], _ => .nil
  | c :: cs, hcs => by
      by_cases hc : c = '%'
      · subst hc
        obtain ⟨a, b, rest, rfl, ha, hb⟩ := hcs [] cs rfl
        have hrest : HasWholeEscapes rest := HasWholeEscapes.of_append ['%', a, b] hcs
        exact .escape ha hb hrest.written
      · have hrest : HasWholeEscapes cs := HasWholeEscapes.of_append [c] hcs
        exact .literal (by simpa [isLiteral] using hc) hrest.written
  termination_by cs => cs.length

theorem hasWholeEscapes_iff : HasWholeEscapes cs ↔ Written isLiteral cs := by
  refine ⟨HasWholeEscapes.written, ?_⟩
  rintro hcs front rest rfl
  have hfront : Written isLiteral front := Written.of_cut (by decide) hcs
  have hpercent : Written isLiteral ('%' :: rest) := Written.of_append rfl hfront hcs
  rcases hpercent.of_cons with ⟨hliteral, -⟩ | ⟨-, a, b, more, hrest, ha, hb, -⟩
  · cases hliteral
  · exact ⟨a, b, more, hrest, ha, hb⟩

theorem areEscapesWhole_iff : areEscapesWhole cs = true ↔ Written isLiteral cs := by
  constructor
  · intro hcs
    fun_induction areEscapesWhole cs with
    | case1 a b rest ih =>
        simp only [Bool.and_eq_true] at hcs
        exact .escape hcs.1.1 hcs.1.2 (ih hcs.2)
    | case2 c rest hc ih =>
        rw [Bool.and_eq_true] at hcs
        exact .literal hcs.1 (ih hcs.2)
    | case3 => exact .nil
  · intro hcs
    induction hcs with
    | nil => rfl
    | @literal c cs hc hcs ih =>
        have hpercent := ne_percent rfl hc
        rw [areEscapesWhole.eq_2 c cs fun _ _ _ heq _ => hpercent heq, hc, ih]
        rfl
    | escape ha hb hcs ih => simp [areEscapesWhole, ha, hb, ih]

instance (cs : List Char) : Decidable (HasWholeEscapes cs) :=
  decidable_of_iff (areEscapesWhole cs = true) (areEscapesWhole_iff.trans hasWholeEscapes_iff.symm)

end WholeEscapes

/-! ## Octets -/

section Octets

variable {p : Char → Bool} {cs ds front : List Char} {a b : Char}

theorem escapeCode_eq_octet (ha : isHexDigit a = true) (hb : isHexDigit b = true) :
    escapeCode? a b = some (octet a b).toNat := by
  have hvalue {c : Char} (hc : isHexDigit c = true) :
      hexDigitValue? c = some (hexValue c) ∧ hexValue c < 16 :=
    forall_isHexDigit (P := fun c => hexDigitValue? c = some (hexValue c) ∧ hexValue c < 16)
      (by decide) hc
  obtain ⟨hhigh, hhigh16⟩ := hvalue ha
  obtain ⟨hlow, hlow16⟩ := hvalue hb
  have hsmall : 16 * hexValue a + hexValue b < 256 := by omega
  rw [octet, UInt8.toNat_ofNat_of_lt' hsmall]
  simp only [escapeCode?, hhigh, hlow]

theorem octets_cons {c : Char} (hc : c ≠ '%') (rest : List Char) :
    octets (c :: rest) = String.utf8EncodeChar c ++ octets rest :=
  octets.eq_2 c rest fun _ _ _ heq _ => hc heq

theorem octets_escape (ha : isHexDigit a = true) (hb : isHexDigit b = true) (rest : List Char) :
    octets ('%' :: a :: b :: rest) = octet a b :: octets rest := by
  rw [octets, ha, hb]
  rfl

theorem octets_append (hp : p '%' = false) (hfront : Written p front) (rest : List Char) :
    octets (front ++ rest) = octets front ++ octets rest := by
  induction hfront with
  | nil => simp [octets]
  | @literal c cs hc hcs ih =>
      have hpercent := ne_percent hp hc
      rw [List.cons_append, octets_cons hpercent, octets_cons hpercent, ih, List.append_assoc]
  | escape ha hb hcs ih =>
      simp only [List.cons_append]
      rw [octets_escape ha hb, octets_escape ha hb, ih, List.cons_append]

theorem utf8EncodeChar_of_isUnreserved {c : Char} (hc : isUnreserved c = true) :
    String.utf8EncodeChar c = [UInt8.ofNat c.toNat] := by
  have hgraphic := isGraphic_iff.mp (isGraphic_of_isUnreserved hc)
  exact utf8EncodeChar_ascii (by omega)

/-- A respelled text stands for the same octets. -/
theorem Respelled.octets_eq (hp : p '%' = false) (h : Respelled p cs ds) (hcs : Written p cs) :
    octets ds = octets cs := by
  cases h with
  | @escape front rest c a b hfront hc ha hb hcode =>
      have hpercent := ne_percent rfl hc
      have hoctet : octet a b = UInt8.ofNat c.toNat := by
        rw [escapeCode_eq_octet ha hb, Option.some.injEq] at hcode
        rw [← hcode, UInt8.ofNat_toNat]
      rw [octets_append hp hfront, octets_append hp hfront, octets_escape ha hb,
        octets_cons hpercent, utf8EncodeChar_of_isUnreserved hc, hoctet, List.singleton_append]
  | @letters front rest a b c d hfront hc hd hac hbd =>
      obtain ⟨ha, hb, -⟩ := Written.of_escape hp (Written.of_append hp hfront hcs)
      have hoctet : octet c d = octet a b := by
        simp only [octet, hexValue, hac, hbd]
      rw [octets_append hp hfront, octets_append hp hfront, octets_escape ha hb,
        octets_escape hc hd, hoctet]

end Octets

/-! ## Spellings of one text -/

section Spellings

variable {p : Char → Bool} {cs ds front : List Char}

theorem isHexDigit_toLower (c : Char) : isHexDigit c.toLower = isHexDigit c := by
  refine forall_toLower (P := fun c d => isHexDigit d = isHexDigit c) (fun _ => rfl) ?_ c
  decide

/-- A text that is respelled properly was written properly. -/
theorem Respelled.of_written (h : Respelled isLiteral cs ds) (hds : Written isLiteral ds) :
    Written isLiteral cs := by
  cases h with
  | escape hfront hc =>
      obtain ⟨-, -, hrest⟩ := Written.of_escape rfl (Written.of_append rfl hfront hds)
      exact hfront.append (.literal (isLiteral_of_isUnreserved hc) hrest)
  | @letters front rest a b c d hfront hc hd hac hbd =>
      have ha : isHexDigit a = true := by
        rw [← isHexDigit_toLower, ← hac, isHexDigit_toLower, hc]
      have hb : isHexDigit b = true := by
        rw [← isHexDigit_toLower, ← hbd, isHexDigit_toLower, hd]
      obtain ⟨-, -, hrest⟩ := Written.of_escape rfl (Written.of_append rfl hfront hds)
      exact hfront.append (.escape ha hb hrest)

/-- Texts are respelled behind any proper beginning. -/
theorem Respelled.append (hfront : Written p front) (h : Respelled p cs ds) :
    Respelled p (front ++ cs) (front ++ ds) := by
  cases h with
  | escape hmore hc ha hb hcode =>
      rw [← List.append_assoc, ← List.append_assoc]
      exact .escape (hfront.append hmore) hc ha hb hcode
  | letters hmore hc hd hac hbd =>
      rw [← List.append_assoc, ← List.append_assoc]
      exact .letters (hfront.append hmore) hc hd hac hbd

theorem Spelling.append (hfront : Written isLiteral front) (h : Spelling cs ds) :
    Spelling (front ++ cs) (front ++ ds) := by
  induction h with
  | rel cs ds hstep => exact .rel _ _ (hstep.append hfront)
  | refl cs => exact .refl _
  | symm cs ds _ ih => exact .symm _ _ ih
  | trans cs ds es _ _ ih ih' => exact .trans _ _ _ ih ih'

theorem Spelling.written_iff (h : Spelling cs ds) :
    Written isLiteral cs ↔ Written isLiteral ds := by
  induction h with
  | rel cs ds hstep => exact ⟨hstep.written rfl, hstep.of_written⟩
  | refl cs => exact Iff.rfl
  | symm cs ds _ ih => exact ih.symm
  | trans cs ds es _ _ ih ih' => exact ih.trans ih'

/-- What one step of respelling keeps is the same for all spellings of a text. -/
theorem Spelling.congr {α : Type} {f : List Char → α}
    (hstep : ∀ {cs ds}, Respelled isLiteral cs ds → Written isLiteral cs → f ds = f cs)
    (h : Spelling cs ds) (hcs : Written isLiteral cs) : f ds = f cs := by
  induction h with
  | rel cs ds hrel => exact hstep hrel hcs
  | refl cs => rfl
  -- The step speaks of proper texts only, so that both ends have to be known as such.
  | symm cs ds hsame ih => exact (ih ((written_iff hsame).mpr hcs)).symm
  | trans cs ds es hsame _ ih ih' => exact (ih' ((written_iff hsame).mp hcs)).trans (ih hcs)

theorem Spelling.octets_eq (h : Spelling cs ds) (hcs : Written isLiteral cs) :
    octets ds = octets cs :=
  h.congr (fun hstep => hstep.octets_eq rfl) hcs

theorem Spelling.decodeUnreserved_eq (h : Spelling cs ds) (hcs : Written isLiteral cs) :
    decodeUnreserved ds = decodeUnreserved cs :=
  h.congr (fun hstep => hstep.decodeUnreserved_eq rfl) hcs

/-- What an escape is settled to is another spelling of it. -/
theorem spelling_settledEscape {a b : Char} (ha : isHexDigit a = true) (hb : isHexDigit b = true)
    (rest : List Char) :
    Written isLiteral (settledEscape a b (octet a b).toNat) ∧
      Spelling ('%' :: a :: b :: rest) (settledEscape a b (octet a b).toNat ++ rest) := by
  rw [settledEscape]
  split
  · next hc =>
      have hvalid : (octet a b).toNat.isValidChar := by
        have := (octet a b).toNat_lt
        left
        omega
      have hcode : escapeCode? a b = some (Char.ofNat (octet a b).toNat).toNat := by
        rw [escapeCode_eq_octet ha hb, toNat_ofNat_of_isValidChar hvalid]
      exact ⟨.literal (isLiteral_of_isUnreserved hc) .nil,
        .symm _ _ (.rel _ _ (.escape .nil hc ha hb hcode))⟩
  · have hupper {c : Char} (hc : isHexDigit c = true) :
        isHexDigit c.toUpper = true ∧ c.toUpper.toLower = c.toLower :=
      forall_isHexDigit (P := fun c => isHexDigit c.toUpper = true ∧
        c.toUpper.toLower = c.toLower) (by decide) hc
    obtain ⟨ha', hlower⟩ := hupper ha
    obtain ⟨hb', hlower'⟩ := hupper hb
    exact ⟨.escape ha' hb' .nil, .rel _ _ (.letters .nil ha' hb' hlower hlower')⟩

/-- What a text is decoded to is one of its spellings. -/
theorem spelling_decodeUnreserved (hcs : Written isLiteral cs) :
    Spelling cs (decodeUnreserved cs) := by
  induction hcs with
  | nil => exact .refl _
  | @literal c cs hc hcs ih =>
      have hpercent := ne_percent rfl hc
      rw [decodeUnreserved_cons hpercent]
      exact Spelling.append (.literal hc .nil) ih
  | @escape a b cs ha hb hcs ih =>
      obtain ⟨hwritten, hsettled⟩ := spelling_settledEscape ha hb cs
      rw [decodeUnreserved_escape (escapeCode_eq_octet ha hb)]
      exact .trans _ _ _ hsettled (ih.append hwritten)

end Spellings

/-! ## Decoded texts -/

section Decoding

variable {p : Char → Bool} {cs front rest : List Char}

theorem areEscapesSettled_of_append (hp : p '%' = false) (hfront : Written p front)
    (hall : areEscapesSettled (front ++ rest) = true) : areEscapesSettled rest = true := by
  induction hfront with
  | nil => exact hall
  | @literal c cs hc hcs ih =>
      have hpercent := ne_percent hp hc
      rw [List.cons_append,
        areEscapesSettled.eq_2 c (cs ++ rest) fun _ _ _ heq _ => hpercent heq] at hall
      exact ih hall
  | @escape a b cs ha hb hcs ih =>
      obtain ⟨code, hcode⟩ := exists_escapeCode ha hb
      simp only [List.cons_append, areEscapesSettled, hcode, Bool.and_eq_true] at hall
      exact ih hall.2

/-- A text with whole escapes is decoded to one with whole escapes, which stands for the same
octets, has no escape of an unreserved character and no escape with a letter in lower case, and is
decoded to itself. Texts are decoded alike exactly where they are spellings of one text. -/
theorem decodeUnreserved_settles (hcs : HasWholeEscapes cs) :
    HasWholeEscapes (decodeUnreserved cs) ∧
      octets (decodeUnreserved cs) = octets cs ∧
      (∀ front a b rest, decodeUnreserved cs = front ++ '%' :: a :: b :: rest →
        isUnreserved (Char.ofNat (octet a b).toNat) = false ∧ a.toUpper = a ∧ b.toUpper = b) ∧
      decodeUnreserved (decodeUnreserved cs) = decodeUnreserved cs ∧
      ∀ ds, HasWholeEscapes ds → (Spelling cs ds ↔ decodeUnreserved cs = decodeUnreserved ds) := by
  have hwritten := hcs.written
  have hsame := spelling_decodeUnreserved hwritten
  have hdecoded := hsame.written_iff.mp hwritten
  have hself := hsame.decodeUnreserved_eq hwritten
  refine ⟨hasWholeEscapes_iff.mpr hdecoded, hsame.octets_eq hwritten, ?_, hself, ?_⟩
  · intro front a b rest hfront
    rw [hfront] at hdecoded
    have hbefore : Written isLiteral front := Written.of_cut (by decide) hdecoded
    obtain ⟨ha, hb, -⟩ := Written.of_escape rfl (Written.of_append rfl hbefore hdecoded)
    have hsettled := decodeUnreserved_eq_self_iff.mp hself
    rw [hfront] at hsettled
    have hescape := areEscapesSettled_of_append rfl hbefore hsettled
    simp only [areEscapesSettled, escapeCode_eq_octet ha hb, Bool.and_eq_true, beq_iff_eq,
      Bool.not_eq_true'] at hescape
    exact ⟨hescape.1.1.1, hescape.1.1.2, hescape.1.2⟩
  · intro ds hds
    have hother := spelling_decodeUnreserved hds.written
    constructor
    · intro h
      exact (h.decodeUnreserved_eq hwritten).symm
    · intro heq
      rw [heq] at hsame
      exact .trans _ _ _ hsame (.symm _ _ hother)

/-- A path with escaped tildes and an escaped percent sign in front of digits. -/
def escapedTilde : List Char := "/%7e%2fé%2541%c3%7E".toList

/-- Another spelling of it. -/
def plainTilde : List Char := "/~%2Fé%25%341%C3~".toList

theorem decodeUnreserved_settles_tilde :
    HasWholeEscapes escapedTilde ∧ HasWholeEscapes plainTilde ∧
      decodeUnreserved escapedTilde = "/~%2Fé%2541%C3~".toList ∧
      octets escapedTilde = [0x2F, 0x7E, 0x2F, 0xC3, 0xA9, 0x25, 0x34, 0x31, 0xC3, 0x7E] ∧
      octets (decodeUnreserved escapedTilde) = octets escapedTilde ∧
      Spelling escapedTilde plainTilde := by
  have hescaped : HasWholeEscapes escapedTilde := by decide
  have hplain : HasWholeEscapes plainTilde := by decide
  have hdecoded : decodeUnreserved escapedTilde = "/~%2Fé%2541%C3~".toList := by decide
  have hother : decodeUnreserved plainTilde = "/~%2Fé%2541%C3~".toList := by decide
  obtain ⟨-, hoctets, -, -, hspellings⟩ := decodeUnreserved_settles hescaped
  exact ⟨hescaped, hplain, hdecoded, by decide, hoctets,
    (hspellings plainTilde hplain).mpr (hdecoded.trans hother.symm)⟩

end Decoding

end LinkShelf.Url
