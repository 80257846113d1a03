import LinkShelf.Proofs.Text.Pieces
import LinkShelf.Proofs.Url.DotSegments

/-!
Texts that are spelled with escapes. Main statements: decoding does not tell apart the spellings of
one text (`Respelled.decodeUnreserved_eq`), and segments that lead nowhere make no difference to a
settled path (`settledPath_insert`).
-/

namespace LinkShelf.Url

open Text

/-- Texts over some characters in which every percent sign begins an escape of two digits. -/
inductive Written (p : Char → Bool) : List Char → Prop
  | nil : Written p []
  | literal {c : Char} {cs : List Char} (hc : p c = true) (hcs : Written p cs) :
      Written p (c :: cs)
  | escape {a b : Char} {cs : List Char} (ha : isHexDigit a = true) (hb : isHexDigit b = true)
      (hcs : Written p cs) : Written p ('%' :: a :: b :: cs)

/-- One character written as an escape, or one escape with letters in another case. -/
inductive Respelled (p : Char → Bool) : List Char → List Char → Prop
  | escape {front rest : List Char} {c a b : Char} (hfront : Written p front)
      (hc : isUnreserved c = true) (ha : isHexDigit a = true) (hb : isHexDigit b = true)
      (hcode : escapeCode? a b = some c.toNat) :
      Respelled p (front ++ c :: rest) (front ++ '%' :: a :: b :: rest)
  | letters {front rest : List Char} {a b c d : Char} (hfront : Written p front)
      (hc : isHexDigit c = true) (hd : isHexDigit d = true) (hac : c.toLower = a.toLower)
      (hbd : d.toLower = b.toLower) :
      Respelled p (front ++ '%' :: a :: b :: rest) (front ++ '%' :: c :: d :: rest)

/-- Segments of a path that lead nowhere: a `.`, or one segment and a `..`. -/
def IsIdle (p : Char → Bool) (inserted : List Char) : Prop :=
  inserted = ['.', '/'] ∨ ∃ segment, segment ≠ [] ∧ Written p segment ∧ '/' ∉ segment ∧
    isDotSegment (decodeUnreserved segment) = false ∧ inserted = segment ++ ['/', '.', '.', '/']

/-! ## Hexadecimal digits -/

section Digits

variable {a b c d : Char}

theorem exists_hexDigitValue (ha : isHexDigit a = true) : ∃ n, hexDigitValue? a = some n := by
  have hsome : (hexDigitValue? a).isSome = true :=
    forall_isHexDigit (P := fun a => (hexDigitValue? a).isSome = true) (by decide) ha
  exact Option.isSome_iff_exists.mp hsome

theorem exists_escapeCode (ha : isHexDigit a = true) (hb : isHexDigit b = true) :
    ∃ code, escapeCode? a b = some code := by
  obtain ⟨high, hhigh⟩ := exists_hexDigitValue ha
  obtain ⟨low, hlow⟩ := exists_hexDigitValue hb
  exact ⟨16 * high + low, by simp only [escapeCode?, hhigh, hlow]⟩

theorem hexDigit_congr (ha : isHexDigit a = true) (hc : isHexDigit c = true)
    (hac : c.toLower = a.toLower) :
    hexDigitValue? c = hexDigitValue? a ∧ c.toUpper = a.toUpper := by
  obtain ⟨-, hvalue, hupper⟩ := hexDigit_of_toLower ha
  obtain ⟨-, hvalue', hupper'⟩ := hexDigit_of_toLower hc
  rw [hvalue, hupper, hvalue', hupper', hac]
  exact ⟨rfl, rfl⟩

theorem escapeCode_congr (ha : isHexDigit a = true) (hb : isHexDigit b = true)
    (hc : isHexDigit c = true) (hd : isHexDigit d = true) (hac : c.toLower = a.toLower)
    (hbd : d.toLower = b.toLower) : escapeCode? c d = escapeCode? a b := by
  obtain ⟨high, hhigh⟩ := exists_hexDigitValue ha
  obtain ⟨low, hlow⟩ := exists_hexDigitValue hb
  have hcvalue := (hexDigit_congr ha hc hac).1.trans hhigh
  have hdvalue := (hexDigit_congr hb hd hbd).1.trans hlow
  simp only [escapeCode?, hhigh, hlow, hcvalue, hdvalue]

end Digits

theorem decodeUnreserved_escape {a b : Char} {code : Nat} (hcode : escapeCode? a b = some code)
    (rest : List Char) :
    decodeUnreserved ('%' :: a :: b :: rest) = settledEscape a b code ++ decodeUnreserved rest := by
  rw [decodeUnreserved, hcode]

/-! ## Spellings of a text -/

section Spellings

variable {p : Char → Bool} {cs ds front rest : List Char}

theorem ne_percent {c : Char} (hp : p '%' = false) (hc : p c = true) : c ≠ '%' := by
  rintro rfl
  simp [hp] at hc

theorem Written.append (hfront : Written p front) (hrest : Written p rest) :
    Written p (front ++ rest) := by
  induction hfront with
  | nil => exact hrest
  | literal hc hcs ih => exact .literal hc ih
  | escape ha hb hcs ih => exact .escape ha hb ih

theorem Written.of_cons {c : Char} (h : Written p (c :: cs)) :
    (p c = true ∧ Written p cs) ∨ (c = '%' ∧ ∃ a b rest, cs = a :: b :: rest ∧
      isHexDigit a = true ∧ isHexDigit b = true ∧ Written p rest) := by
  cases h with
  | literal hc hcs => exact .inl ⟨hc, hcs⟩
  | escape ha hb hcs => exact .inr ⟨rfl, _, _, _, rfl, ha, hb, hcs⟩

theorem Written.mem (hcs : Written p cs) {c : Char} (hc : c ∈ cs) :
    p c = true ∨ c = '%' ∨ isHexDigit c = true := by
  induction hcs with
  | nil => simp at hc
  | literal hd hcs ih =>
      rcases List.mem_cons.mp hc with rfl | hc
      · exact .inl hd
      · exact ih hc
  | escape ha hb hcs ih =>
      simp only [List.mem_cons] at hc
      rcases hc with rfl | rfl | rfl | hc
      · exact .inr (.inl rfl)
      · exact .inr (.inr ha)
      · exact .inr (.inr hb)
      · exact ih hc

/-- An escape does not reach across a character that is no hexadecimal digit. -/
theorem Written.of_cut {c : Char} (hc : isHexDigit c = false)
    (hall : Written p (front ++ c :: rest)) : Written p front := by
  generalize hcs : front ++ c :: rest = cs at hall
  induction hall generalizing front with
  | nil => simp at hcs
  | literal hd hmore ih =>
      cases front with
      | nil => exact .nil
      | cons d front =>
          simp only [List.cons_append, List.cons.injEq] at hcs
          obtain ⟨rfl, hmore⟩ := hcs
          exact .literal hd (ih hmore)
  | escape ha hb hmore ih =>
      match front with
      | [] => exact .nil
      | [_] =>
          simp only [List.cons_append, List.nil_append, List.cons.injEq] at hcs
          rw [← hcs.2.1, hc] at ha
          cases ha
      | [_, _] =>
          simp only [List.cons_append, List.nil_append, List.cons.injEq] at hcs
          rw [← hcs.2.2.1, hc] at hb
          cases hb
      | _ :: _ :: _ :: front =>
          simp only [List.cons_append, List.cons.injEq] at hcs
          obtain ⟨rfl, rfl, rfl, hmore⟩ := hcs
          exact .escape ha hb (ih hmore)

theorem Respelled.ne_nil (h : Respelled p cs ds) : cs ≠ [] := by
  cases h with
  | escape => simp
  | letters => simp

theorem Respelled.head?_slash (h : Respelled p cs ds) (hcs : cs.head? = some '/') :
    ds.head? = some '/' := by
  cases h with
  | @escape front rest c a b hfront hc =>
      cases front with
      | nil =>
          obtain rfl : c = '/' := by simpa using hcs
          exact absurd hc (by decide)
      | cons d front => simpa using hcs
  | @letters front =>
      cases front with
      | nil => simp at hcs
      | cons d front => simpa using hcs

variable (hp : p '%' = false)

include hp

theorem Written.of_append (hfront : Written p front) (hall : Written p (front ++ rest)) :
    Written p rest := by
  induction hfront with
  | nil => exact hall
  | literal hc hcs ih =>
      rcases hall.of_cons with ⟨-, hmore⟩ | ⟨rfl, -⟩
      · exact ih hmore
      · simp [hp] at hc
  | escape ha hb hcs ih =>
      rcases hall.of_cons with ⟨hc, -⟩ | ⟨-, _, _, more, heq, -, -, hmore⟩
      · simp [hp] at hc
      · obtain ⟨rfl, rfl, rfl⟩ : _ ∧ _ ∧ _ = more := by simpa using heq
        exact ih hmore

theorem Written.of_escape {a b : Char} (h : Written p ('%' :: a :: b :: rest)) :
    isHexDigit a = true ∧ isHexDigit b = true ∧ Written p rest := by
  cases h with
  | literal hpercent => exact absurd rfl (ne_percent hp hpercent)
  | escape ha hb hrest => exact ⟨ha, hb, hrest⟩

theorem decodeUnreserved_append (hfront : Written p front) (rest : List Char) :
    decodeUnreserved (front ++ rest) = decodeUnreserved front ++ decodeUnreserved rest := by
  induction hfront with
  | nil => simp [decodeUnreserved]
  | @literal c cs hc hcs ih =>
      have hpercent := ne_percent hp hc
      rw [List.cons_append, decodeUnreserved_cons hpercent, decodeUnreserved_cons hpercent, ih,
        List.cons_append]
  | escape ha hb hcs ih =>
      obtain ⟨code, hcode⟩ := exists_escapeCode ha hb
      simp only [List.cons_append]
      rw [decodeUnreserved_escape hcode, decodeUnreserved_escape hcode, ih, List.append_assoc]

/-- Respelling a text keeps it written properly. -/
theorem Respelled.written (h : Respelled p cs ds) (hcs : Written p cs) : Written p ds := by
  cases h with
  | @escape front rest c a b hfront hc ha hb hcode =>
      have hmore := Written.of_append hp hfront hcs
      cases hmore with
      | literal _ hrest => exact hfront.append (.escape ha hb hrest)
      | escape => exact absurd hc (by decide)
  | letters hfront hc hd =>
      obtain ⟨-, -, hrest⟩ := Written.of_escape hp (Written.of_append hp hfront hcs)
      exact hfront.append (.escape hc hd hrest)

/-- Decoding does not tell the spellings of a text apart. -/
theorem Respelled.decodeUnreserved_eq (h : Respelled p cs ds) (hcs : Written p cs) :
    decodeUnreserved ds = decodeUnreserved cs := by
  cases h with
  | @escape front rest c a b hfront hc ha hb hcode =>
      have hpercent := ne_percent rfl hc
      have hself : settledEscape a b c.toNat = [c] := by
        rw [settledEscape, Char.ofNat_toNat, if_pos hc]
      rw [decodeUnreserved_append hp hfront, decodeUnreserved_append hp hfront,
        decodeUnreserved_cons hpercent, decodeUnreserved_escape hcode, hself]
      rfl
  | @letters front rest a b c d hfront hc hd hac hbd =>
      obtain ⟨ha, hb, -⟩ := Written.of_escape hp (Written.of_append hp hfront hcs)
      obtain ⟨code, hcode⟩ := exists_escapeCode ha hb
      have hsame := escapeCode_congr ha hb hc hd hac hbd
      rw [decodeUnreserved_append hp hfront, decodeUnreserved_append hp hfront,
        decodeUnreserved_escape hcode, decodeUnreserved_escape (hsame.trans hcode),
        settledEscape, settledEscape, (hexDigit_congr ha hc hac).2,
        (hexDigit_congr hb hd hbd).2]

end Spellings

/-! ## Segments that lead nowhere -/

section Idle

variable {p : Char → Bool} {front rest inserted : List Char}

theorem segments_append (front rest : List Char) :
    segments (front ++ '/' :: rest) = segments front ++ segments rest := by
  induction front with
  | nil => rfl
  | cons c front ih =>
      by_cases hc : c = '/'
      · subst hc
        rw [List.cons_append, segments_slash, segments_slash, ih, List.cons_append]
      · have hneg : (c == '/') = false := by simpa using hc
        obtain ⟨first, more, hfront, hcons⟩ := pieces_cons_of_neg (p := (· == '/')) hneg front
        obtain ⟨first', more', hall, hcons'⟩ :=
          pieces_cons_of_neg (p := (· == '/')) hneg (front ++ '/' :: rest)
        have hfirst : segments front = first :: more := hfront
        have hall' : segments (front ++ '/' :: rest) = first' :: more' := hall
        rw [hfirst, hall', List.cons_append, List.cons.injEq] at ih
        calc segments (c :: front ++ '/' :: rest) = (c :: first') :: more' := hcons'
          _ = (c :: first) :: (more ++ segments rest) := by rw [ih.1, ih.2]
          _ = segments (c :: front) ++ segments rest := by
              rw [← List.cons_append]
              exact congrArg (· ++ segments rest) hcons.symm

theorem segments_of_no_slash {segment : List Char} (hsegment : '/' ∉ segment) :
    segments segment = [segment] :=
  pieces_of_forall (beq_of_not_mem hsegment)

theorem keptSegments_append (kept segs more : List (List Char)) :
    keptSegments kept (segs ++ more) = keptSegments (keptSegments kept segs) more :=
  List.foldl_append

theorem keptSegments_idle (hp : p '%' = false) (hinserted : IsIdle p inserted)
    (kept : List (List Char)) (rest : List Char) :
    keptSegments kept (segments (decodeUnreserved (inserted ++ rest))) =
      keptSegments kept (segments (decodeUnreserved rest)) := by
  rcases hinserted with rfl | ⟨segment, hne, hwritten, hslash, hdot, rfl⟩
  · have hdecode : decodeUnreserved (['.', '/'] ++ rest) =
        ['.'] ++ '/' :: decodeUnreserved rest := by
      simp [decodeUnreserved_cons]
    rw [hdecode, segments_append, keptSegments_append]
    rfl
  · have hdecode : decodeUnreserved (segment ++ ['/', '.', '.', '/'] ++ rest) =
        decodeUnreserved segment ++ '/' :: (['.', '.'] ++ '/' :: decodeUnreserved rest) := by
      rw [List.append_assoc, decodeUnreserved_append hp hwritten]
      simp [decodeUnreserved_cons]
    have hsegment : '/' ∉ decodeUnreserved segment := by
      intro hmem
      rcases mem_decodeUnreserved hmem with hmem | hmem
      · exact hslash hmem
      · exact absurd hmem (by decide)
    have hback : keptSegments kept ([decodeUnreserved segment] ++ [['.', '.']]) = kept := by
      simp only [keptSegments, List.singleton_append, List.foldl_cons, List.foldl_nil]
      rw [takeSegment_of_not_dot hdot, takeSegment_back_cons, if_neg (by simpa using hne)]
    rw [hdecode, segments_append, segments_append, segments_of_no_slash hsegment,
      ← List.append_assoc, keptSegments_append]
    exact congrArg (fun kept => keptSegments kept _) hback

/-- Segments that lead nowhere may stand after any slash of a path. -/
theorem settledPath_insert (hp : p '%' = false) (hfront : Written p front)
    (hinserted : IsIdle p inserted) (hslash : (front ++ '/' :: rest).head? = some '/') :
    settledPath (front ++ '/' :: (inserted ++ rest)) = settledPath (front ++ '/' :: rest) := by
  cases front with
  | nil =>
      rw [List.nil_append, List.nil_append, settledPath_slash, settledPath_slash,
        keptSegments_idle hp hinserted]
  | cons c front =>
      obtain rfl : c = '/' := by simpa using hslash
      have hroot : Written p ['/'] := by
        cases hfront with
        | literal hc => exact .literal hc .nil
      have htail : Written p front := Written.of_append hp hroot hfront
      rw [List.cons_append, List.cons_append, settledPath_slash, settledPath_slash,
        decodeUnreserved_append hp htail, decodeUnreserved_append hp htail, decodeUnreserved_slash,
        decodeUnreserved_slash, segments_append, segments_append, keptSegments_append,
        keptSegments_append, keptSegments_idle hp hinserted]

end Idle

end LinkShelf.Url
