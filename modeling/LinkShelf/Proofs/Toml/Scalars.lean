import LinkShelf.Proofs.Json.RoundTrip
import LinkShelf.Toml.Reader
import LinkShelf.Toml.Writer

/-!
Texts, key parts and integers in TOML documents. Main statements: each is read as it was written,
and what follows it is left (`readText_writeText`, `readKey_writeKeyPart`,
`readScalar_integerText`).
-/

namespace LinkShelf.Toml

open Text

variable {c : Char} {cs rest : List Char} {fuel : Nat}

/-! ## Texts -/

theorem readBasic_quote (fuel : Nat) (rest : List Char) :
    readBasic false (fuel + 1) ('"' :: rest) = .ok ([], rest) := rfl

theorem readBasic_escape {more : List Char} (hescape : readEscape false rest = .ok ([c], more)) :
    readBasic false (fuel + 1) ('\\' :: rest) =
      (readBasic false fuel more).map (Json.consRead c) := by
  rw [readBasic, if_neg (by decide), if_pos rfl, hescape]
  show (readBasic false fuel more >>= fun found => .ok ([c] ++ found.1, found.2)) = _
  cases readBasic false fuel more <;> rfl

theorem readBasic_plain (hquote : c ≠ '"') (hslash : c ≠ '\\') (hlegal : isIllegal c = false) :
    readBasic false (fuel + 1) (c :: rest) = (readBasic false fuel rest).map (Json.consRead c) := by
  rw [readBasic, if_neg hquote, if_neg hslash]
  simp only [Bool.false_eq_true, if_false, hlegal]
  rfl

theorem readEscape_simple {d : Char} (hu : d ≠ 'u') (hU : d ≠ 'U')
    (hescape : simpleEscape? d = some c) : readEscape false (d :: rest) = .ok ([c], rest) := by
  simp [readEscape, hu, hU, hescape]

theorem readHexChar_hexPadded (hc : c.toNat < 0xD800) (rest : List Char) :
    readHexChar 4 (hexPadded 4 c.toNat ++ rest) = .ok (c, rest) := by
  have hvalue : ∀ n < 16, Json.hexValue? n.digitChar = some n := Json.hexValue?_digitChar
  have hsum : 16 * (16 * (16 * (c.toNat / 16 / 16 / 16) + c.toNat / 16 / 16 % 16) +
      c.toNat / 16 % 16) + c.toNat % 16 = c.toNat := by
    omega
  rw [Json.hexPadded_four (by omega)]
  simp only [readHexChar, List.cons_append, List.nil_append, List.take_succ_cons, List.take_zero,
    List.mapM_cons, List.mapM_nil, hvalue (c.toNat / 16 / 16 / 16) (by omega),
    hvalue (c.toNat / 16 / 16 % 16) (by omega), hvalue (c.toNat / 16 % 16) (by omega),
    hvalue (c.toNat % 16) (by omega), Option.pure_def, Option.bind_eq_bind, Option.bind_some,
    List.length_cons, List.length_nil, List.foldl_cons, List.foldl_nil, Nat.mul_zero,
    Nat.zero_add, hsum, hc, true_or, if_true, Char.ofNat_toNat, List.drop_succ_cons,
    List.drop_zero]
  simp

theorem readEscape_unit (hc : c.toNat < 0xD800) (rest : List Char) :
    readEscape false ('u' :: (hexPadded 4 c.toNat ++ rest)) = .ok ([c], rest) := by
  simp [readEscape, readHexChar_hexPadded hc, Except.map]

/-- Every form in which a character is written is read as that character. -/
theorem readBasic_escapedChar (c : Char) (fuel : Nat) (rest : List Char) :
    readBasic false (fuel + 1) (escapedChar c ++ rest) =
      (readBasic false fuel rest).map (Json.consRead c) := by
  unfold escapedChar
  split
  · rename_i h
    rcases h with rfl | rfl
    · exact readBasic_escape (readEscape_simple (by decide) (by decide) rfl)
    · exact readBasic_escape (readEscape_simple (by decide) (by decide) rfl)
  rename_i hmarks
  rw [not_or] at hmarks
  split
  · rename_i h
    exact h ▸ readBasic_escape (readEscape_simple (by decide) (by decide) rfl)
  split
  · rename_i h
    exact h ▸ readBasic_escape (readEscape_simple (by decide) (by decide) rfl)
  split
  · rename_i h
    have hc : c = Char.ofNat 8 := by rw [← h, Char.ofNat_toNat]
    exact hc ▸ readBasic_escape (readEscape_simple (by decide) (by decide) rfl)
  split
  · rename_i h
    have hc : c = Char.ofNat 12 := by rw [← h, Char.ofNat_toNat]
    exact hc ▸ readBasic_escape (readEscape_simple (by decide) (by decide) rfl)
  split
  · rename_i h
    have hc : c.toNat < 0xD800 := by
      simp only [Bool.or_eq_true, Bool.and_eq_true, decide_eq_true_eq] at h
      omega
    exact readBasic_escape (readEscape_unit hc rest)
  · rename_i hlegal
    exact readBasic_plain hmarks.1 hmarks.2 (Bool.eq_false_iff.mpr hlegal)

theorem readBasic_flatMap (hfuel : cs.length < fuel) (rest : List Char) :
    readBasic false fuel (cs.flatMap escapedChar ++ '"' :: rest) = .ok (cs, rest) := by
  obtain ⟨fuel, rfl⟩ := Nat.exists_eq_add_one_of_ne_zero (Nat.ne_zero_of_lt hfuel)
  induction cs generalizing fuel with
  | nil => exact readBasic_quote fuel rest
  | cons c cs ih =>
      rw [List.length_cons] at hfuel
      obtain ⟨fuel, rfl⟩ := Nat.exists_eq_add_one_of_ne_zero (show fuel ≠ 0 by omega)
      rw [List.flatMap_cons, List.append_assoc, readBasic_escapedChar, ih fuel (by omega)]
      rfl

theorem escapedChar_eq_cons (c : Char) : ∃ d more, escapedChar c = d :: more ∧ d ≠ '"' := by
  unfold escapedChar
  split
  · exact ⟨_, _, rfl, by decide⟩
  rename_i hmarks
  rw [not_or] at hmarks
  split
  · exact ⟨_, _, rfl, by decide⟩
  split
  · exact ⟨_, _, rfl, by decide⟩
  split
  · exact ⟨_, _, rfl, by decide⟩
  split
  · exact ⟨_, _, rfl, by decide⟩
  split
  · exact ⟨_, _, rfl, by decide⟩
  · exact ⟨_, _, rfl, hmarks.1⟩

theorem length_flatMap_escapedChar (cs : List Char) :
    cs.length ≤ (cs.flatMap escapedChar).length := by
  induction cs with
  | nil => exact Nat.le_refl 0
  | cons c cs ih =>
      obtain ⟨d, more, hcons, -⟩ := escapedChar_eq_cons c
      rw [List.flatMap_cons, List.length_append, hcons, List.length_cons, List.length_cons]
      omega

theorem readBasic_writtenText (s : String) (rest : List Char) :
    readBasic false ((s.toList.flatMap escapedChar ++ '"' :: rest).length + 1)
      (s.toList.flatMap escapedChar ++ '"' :: rest) = .ok (s.toList, rest) := by
  refine readBasic_flatMap ?_ rest
  have hlength := length_flatMap_escapedChar s.toList
  rw [List.length_append]
  omega

theorem writeText_append (s : String) (rest : List Char) :
    writeText s ++ rest = '"' :: (s.toList.flatMap escapedChar ++ '"' :: rest) := by
  simp [writeText]

/-- A written text does not start with the three quotes of a text of several lines. -/
theorem after?_quotes (cs : List Char) (hrest : rest.head? ≠ some '"') :
    after? "\"\"" (cs.flatMap escapedChar ++ '"' :: rest) = none := by
  have hprefix : ∀ more : List Char, (∀ tail, more = '"' :: '"' :: tail → False) →
      after? "\"\"" more = none := by
    intro more hmore
    refine if_neg ?_
    rw [List.isPrefixOf_iff_prefix]
    rintro ⟨tail, rfl⟩
    exact hmore tail rfl
  refine hprefix _ ?_
  cases cs with
  | nil =>
      intro tail heq
      rw [List.flatMap_nil, List.nil_append] at heq
      exact hrest (by rw [(List.cons.inj heq).2, List.head?_cons])
  | cons c cs =>
      intro tail heq
      obtain ⟨d, more, hcons, hd⟩ := escapedChar_eq_cons c
      rw [List.flatMap_cons, hcons] at heq
      exact hd (List.cons.inj heq).1

theorem readText_writeText (s : String) (hrest : rest.head? ≠ some '"') :
    readText (writeText s ++ rest) = .ok (s, rest) := by
  rw [writeText_append, readText, after?_quotes s.toList hrest]
  simp only [readBasic_writtenText, Except.map, String.ofList_toList]

/-! ## Keys -/

theorem writeKeyPart_eq_cons (name : String) :
    ∃ c more, writeKeyPart name = c :: more ∧ (isBareKeyChar c = true ∨ c = '"') := by
  unfold writeKeyPart
  split
  · rename_i h
    simp only [Bool.and_eq_true, Bool.not_eq_true', List.all_eq_true] at h
    obtain ⟨c, more, hcons⟩ := List.exists_cons_of_ne_nil (l := name.toList) fun hnil =>
      absurd h.1 (by rw [String.toList_eq_nil_iff.mp hnil]; decide)
    exact ⟨c, more, hcons, .inl (h.2 c (by rw [hcons]; exact List.mem_cons_self))⟩
  · exact ⟨'"', _, rfl, .inr rfl⟩

theorem skipSpace_cons (hc : isSpace c = false) (rest : List Char) :
    skipSpace (c :: rest) = c :: rest := by
  simp [skipSpace, hc]

theorem isSpace_of_keyStart (hc : isBareKeyChar c = true ∨ c = '"') : isSpace c = false := by
  rw [Bool.eq_false_iff]
  intro hspace
  simp only [isSpace, Bool.or_eq_true, decide_eq_true_eq] at hspace
  rcases hspace with rfl | rfl
  · exact absurd hc (by decide)
  · exact absurd hc (by decide)

theorem readKeyPart_writeKeyPart (name : String)
    (hrest : ∀ c, rest.head? = some c → isBareKeyChar c = false) :
    readKeyPart (writeKeyPart name ++ rest) = .ok (name, rest) := by
  by_cases hbare : (!name.isEmpty && name.toList.all isBareChar) = true
  · rw [writeKeyPart, if_pos hbare]
    simp only [Bool.and_eq_true, Bool.not_eq_true', List.all_eq_true] at hbare
    have hspan : (name.toList ++ rest).span isBareKeyChar = (name.toList, rest) :=
      span_append hbare.2 hrest
    obtain ⟨c, more, hcons⟩ := List.exists_cons_of_ne_nil (l := name.toList) fun hnil =>
      absurd hbare.1 (by rw [String.toList_eq_nil_iff.mp hnil]; decide)
    have hc : isBareKeyChar c = true := hbare.2 c (by rw [hcons]; exact List.mem_cons_self)
    have hname : String.ofList (c :: more) = name := by rw [← hcons, String.ofList_toList]
    rw [hcons] at hspan ⊢
    rw [List.cons_append] at hspan ⊢
    unfold readKeyPart
    split
    · rename_i heq
      rw [(List.cons.inj heq).1] at hc
      exact absurd hc (by decide)
    · rename_i heq
      rw [(List.cons.inj heq).1] at hc
      exact absurd hc (by decide)
    · rw [hspan]
      exact congrArg (fun found => Except.ok (found, rest)) hname
  · rw [writeKeyPart, if_neg hbare, writeText_append, readKeyPart, readBasic_writtenText]
    simp only [Except.map, String.ofList_toList]

/-- A key of one part ends where the blanks after it end, unless a full stop stands there. -/
theorem readKey_writeKeyPart (name : String) (fuel : Nat)
    (hrest : ∀ c, rest.head? = some c → isBareKeyChar c = false)
    (hstop : (skipSpace rest).head? ≠ some '.') :
    readKey (fuel + 1) (writeKeyPart name ++ rest) = .ok ([name], skipSpace rest) := by
  rw [readKey, readKeyPart_writeKeyPart name hrest, ok_bind]
  dsimp only
  split
  · rename_i heq
    exact absurd (by rw [heq, List.head?_cons]) hstop
  · rfl

/-! ## Integers -/

theorem hexValue?_of_isDigit (hc : c.isDigit = true) :
    Json.hexValue? c = some (c.toNat - '0'.toNat) := by
  have hrange : '0' ≤ c ∧ c ≤ '9' := by
    simpa [Char.isDigit, Char.le_def, UInt32.le_iff_toNat_le] using hc
  rw [Json.hexValue?, if_pos hrange]

theorem valueOf_toDigits (n : Nat) : valueOf 10 (Nat.toDigits 10 n) = n :=
  (Number.foldl_digits (fun _ hc => hexValue?_of_isDigit hc)
    (fun _ hc => Number.isDigit_of_mem_toDigits hc) 0).trans Nat.ofDigitChars_ten_toDigits

theorem after?_cons {d : Char} {start : String} {tail : List Char}
    (hstart : start.toList = d :: tail) (hc : c ≠ d) (cs : List Char) :
    after? start (c :: cs) = none := by
  refine if_neg ?_
  rw [List.isPrefixOf_iff_prefix, hstart, List.cons_prefix_cons]
  exact fun h => hc h.1.symm

/-- What is left of digits at the end of a line when some of them are taken. -/
theorem fixedDigits?_line {digits : List Char} {count n : Nat} {left : List Char}
    (hdigits : ∀ c ∈ digits, c.isDigit = true)
    (htake : fixedDigits? count (digits ++ '\n' :: rest) = some (n, left)) :
    ∃ c more, left = c :: more ∧ (c.isDigit = true ∨ c = '\n') := by
  unfold fixedDigits? at htake
  simp only [Option.ite_none_right_eq_some, Option.some.injEq, Prod.mk.injEq, List.all_eq_true]
    at htake
  obtain ⟨⟨hlength, htaken⟩, -, rfl⟩ := htake
  have hcount : count ≤ digits.length := by
    by_contra hlt
    have hmem : '\n' ∈ (digits ++ '\n' :: rest).take count := by
      rw [List.take_append, List.mem_append]
      right
      obtain ⟨k, hk⟩ := Nat.exists_eq_add_one_of_ne_zero (show count - digits.length ≠ 0 by omega)
      rw [hk, List.take_succ_cons]
      exact List.mem_cons_self
    exact absurd (htaken '\n' hmem) (by decide)
  rw [List.drop_append_of_le_length hcount]
  cases hdrop : digits.drop count with
  | nil => exact ⟨'\n', rest, rfl, .inr rfl⟩
  | cons c more =>
      refine ⟨c, more ++ '\n' :: rest, rfl, .inl (hdigits c ?_)⟩
      exact List.mem_of_mem_drop (by rw [hdrop]; exact List.mem_cons_self)

theorem fixedDigits?_minus (count : Nat) (cs : List Char) :
    fixedDigits? (count + 1) ('-' :: cs) = none := by
  rw [fixedDigits?, if_neg]
  rintro ⟨-, htaken⟩
  rw [List.take_succ_cons, List.all_cons, Bool.and_eq_true] at htaken
  exact absurd htaken.1 (by decide)

/-- The text of an integer at the end of a line. -/
inductive IsIntegerLine : List Char → Prop
  | natural {digits : List Char} (rest : List Char) (hdigits : ∀ c ∈ digits, c.isDigit = true) :
    IsIntegerLine (digits ++ '\n' :: rest)
  | negative (cs : List Char) : IsIntegerLine ('-' :: cs)

theorem isIntegerLine_integerText (n : Int) (rest : List Char) :
    IsIntegerLine (Number.integerText n ++ '\n' :: rest) := by
  unfold Number.integerText
  split
  · exact .negative _
  · exact .natural rest fun _ hc => Number.isDigit_of_mem_toDigits hc

/-- No digit group of an integer ends in front of a mark. -/
theorem after?_fixedDigits? {count n : Nat} {left : List Char} (hcs : IsIntegerLine cs)
    (htake : fixedDigits? (count + 1) cs = some (n, left)) {d : Char} {mark : String}
    (hmark : mark.toList = [d]) (hdigit : d.isDigit = false) (hline : d ≠ '\n') :
    after? mark left = none := by
  cases hcs with
  | negative cs =>
      rw [fixedDigits?_minus] at htake
      cases htake
  | natural rest hdigits =>
      obtain ⟨c, more, rfl, hc⟩ := fixedDigits?_line hdigits htake
      refine after?_cons hmark ?_ more
      rintro rfl
      rcases hc with hc | hc
      · rw [hdigit] at hc
        cases hc
      · exact hline hc

theorem moment?_of_isIntegerLine (hcs : IsIntegerLine cs) : moment? cs = none := by
  unfold moment?
  cases hyear : fixedDigits? 4 cs with
  | none => rfl
  | some found =>
      -- The year of a moment ends in front of a hyphen.
      have hmark : after? "-" found.2 = none :=
        after?_fixedDigits? hcs hyear rfl (by decide) (by decide)
      show (after? "-" found.2 >>= fun rest => _) = none
      rw [hmark]
      rfl

theorem clock?_of_isIntegerLine (hcs : IsIntegerLine cs) : clock? cs = none := by
  unfold clock?
  cases hhour : twoDigits? 0 23 cs with
  | none => rfl
  | some found =>
      have htake : ∃ n, fixedDigits? 2 cs = some (n, found.2) := by
        unfold twoDigits? at hhour
        cases hfixed : fixedDigits? 2 cs with
        | none => rw [hfixed] at hhour; cases hhour
        | some taken =>
            rw [hfixed] at hhour
            simp only [Option.bind_eq_bind, Option.bind_some, Option.pure_def,
              Option.ite_none_right_eq_some, Option.some.injEq] at hhour
            exact ⟨taken.1, by rw [← hhour.2]⟩
      obtain ⟨n, htake⟩ := htake
      have hmark : after? ":" found.2 = none :=
        after?_fixedDigits? hcs htake rfl (by decide) (by decide)
      show (after? ":" found.2 >>= fun rest => _) = none
      rw [hmark]
      rfl

theorem after?_zero {n : Nat} {d : Char} {start : String} (hstart : start.toList = ['0', d])
    (hd : d ≠ '\n') (rest : List Char) :
    after? start (Nat.toDigits 10 n ++ '\n' :: rest) = none := by
  rcases Nat.eq_zero_or_pos n with rfl | hn
  · refine if_neg ?_
    rw [List.isPrefixOf_iff_prefix, hstart]
    show ¬ ['0', d] <+: '0' :: '\n' :: rest
    rw [List.cons_prefix_cons, List.cons_prefix_cons]
    exact fun h => hd h.2.1
  · obtain ⟨c, more, hdigits, hc⟩ := Number.toDigits_eq_cons hn
    rw [hdigits]
    exact after?_cons hstart hc _

theorem radixNumber?_integerText (n : Int) (rest : List Char) :
    radixNumber? (Number.integerText n ++ '\n' :: rest) = none := by
  have hnone : ∀ d, d ≠ '\n' → ∀ mark : String, mark.toList = ['0', d] →
      after? mark (Number.integerText n ++ '\n' :: rest) = none := by
    intro d hd mark hmark
    unfold Number.integerText
    split
    · exact after?_cons hmark (by decide) _
    · exact after?_zero hmark hd rest
  rw [radixNumber?]
  simp only [hnone 'x' (by decide) "0x" rfl, hnone 'b' (by decide) "0b" rfl,
    hnone 'o' (by decide) "0o" rfl]
  rfl

theorem digitsOf_line {digits : List Char} (hdigits : ∀ c ∈ digits, c.isDigit = true)
    (rest : List Char) :
    digitsOf Char.isDigit (digits ++ '\n' :: rest) = (digits, '\n' :: rest) := by
  induction digits with
  | nil => rfl
  | cons c digits ih =>
      have hc := hdigits c (by simp)
      have hplain : c ≠ '_' := by
        rintro rfl
        exact absurd hc (by decide)
      rw [List.cons_append, digitsOf, if_pos hc, ih fun d hd => hdigits d (by simp [hd])]
      exact fun _ _ h _ => hplain h

theorem wholePart?_toDigits (n : Nat) (rest : List Char) :
    wholePart? (Nat.toDigits 10 n ++ '\n' :: rest) =
      some (Nat.toDigits 10 n, '\n' :: rest) := by
  rcases Nat.eq_zero_or_pos n with rfl | hn
  · rfl
  · obtain ⟨c, more, hdigits, hzero⟩ := Number.toDigits_eq_cons hn
    have hline := digitsOf_line (fun _ hc => Number.isDigit_of_mem_toDigits (n := n) hc) rest
    have hc : c.isDigit = true := Number.isDigit_of_mem_toDigits (n := n) (by simp [hdigits])
    rw [hdigits] at hline ⊢
    rw [List.cons_append] at hline ⊢
    unfold wholePart?
    split
    · rename_i heq
      exact absurd (List.cons.inj heq).1 hzero
    · rw [digitRun?, if_pos hc, hline]

/-- An integer is read with its sign, unless it has too many digits. -/
theorem decimalNumber?_integerText {n : Int} (hsize : Number.isOversized n = false)
    (rest : List Char) :
    decimalNumber? (Number.integerText n ++ '\n' :: rest) =
      some (.ok (.int n, '\n' :: rest)) := by
  have hlength : ¬ Number.maxDigits < (Nat.toDigits 10 n.natAbs).length :=
    fun h => absurd ((Number.isOversized_iff n).mpr h) (by rw [hsize]; decide)
  have hpoint : after? "." ('\n' :: rest) = none := after?_cons rfl (by decide) rest
  have hlower : after? "e" ('\n' :: rest) = none := after?_cons rfl (by decide) rest
  have hupper : after? "E" ('\n' :: rest) = none := after?_cons rfl (by decide) rest
  by_cases hneg : n < 0
  · rw [Number.integerText, if_pos hneg, List.cons_append]
    simp only [decimalNumber?, wholePart?_toDigits, hpoint, hlower, hupper, Option.bind_eq_bind,
      Option.bind_some, Option.bind_none, Option.getD_none, Option.orElse_eq_orElse,
      Option.orElse_none, if_neg hlength, valueOf_toDigits, if_true,
      Int.ofNat_natAbs_of_nonpos (Int.le_of_lt hneg), Int.neg_neg]
    rfl
  · have hminus : ∀ more, Nat.toDigits 10 n.natAbs ++ '\n' :: rest = '-' :: more → False :=
      Number.toDigits_append_ne_cons n.natAbs (by decide) ('\n' :: rest)
    have hplus : ∀ more, Nat.toDigits 10 n.natAbs ++ '\n' :: rest = '+' :: more → False :=
      Number.toDigits_append_ne_cons n.natAbs (by decide) ('\n' :: rest)
    rw [Number.integerText, if_neg hneg]
    unfold decimalNumber?
    simp only [wholePart?_toDigits, hpoint, hlower, hupper, Option.bind_eq_bind,
      Option.bind_some, Option.bind_none, Option.getD_none, Option.orElse_eq_orElse,
      Option.orElse_none, if_neg hlength, valueOf_toDigits, Bool.false_eq_true, if_false,
      Int.natAbs_of_nonneg (Int.not_lt.mp hneg)]
    rfl

theorem readScalar_integerText {n : Int} (hsize : Number.isOversized n = false)
    (rest : List Char) :
    readScalar (Number.integerText n ++ '\n' :: rest) = .ok (.int n, '\n' :: rest) := by
  have hline := isIntegerLine_integerText n rest
  obtain ⟨c, more, hcons, hc⟩ := Json.integerText_eq_cons n
  have hword : ∀ (d : Char) (tail : List Char) (word : String), word.toList = d :: tail →
      d ≠ '-' → d.isDigit = false → after? word (c :: (more ++ '\n' :: rest)) = none := by
    intro d tail word hstart hminus hdigit
    refine after?_cons hstart ?_ _
    rintro rfl
    rcases hc with hc | hc
    · exact hminus hc
    · rw [hdigit] at hc
      cases hc
  have htrue := hword 't' _ "true" rfl (by decide) (by decide)
  have hfalse := hword 'f' _ "false" rfl (by decide) (by decide)
  rw [← List.cons_append, ← hcons] at htrue hfalse
  simp only [readScalar, htrue, hfalse, moment?_of_isIntegerLine hline,
    clock?_of_isIntegerLine hline, radixNumber?_integerText, decimalNumber?_integerText hsize]

/-! ## Values -/

/-- A text or an integer. -/
def Value.isPlain : Value → Bool
  | .int _ | .text _ => true
  | _ => false

theorem readValue_integerText {n : Int} (hsize : Number.isOversized n = false) (fuel : Nat)
    (rest : List Char) :
    readValue (fuel + 1) (Number.integerText n ++ '\n' :: rest) = .ok (.int n, '\n' :: rest) := by
  have hread := readScalar_integerText hsize rest
  obtain ⟨c, more, hcons, hc⟩ := Json.integerText_eq_cons n
  rw [hcons, List.cons_append] at hread ⊢
  have hmarks : c ≠ '"' ∧ c ≠ '\'' ∧ c ≠ '[' ∧ c ≠ '{' := by
    rcases hc with rfl | hdigit
    · decide
    · refine ⟨?_, ?_, ?_, ?_⟩ <;>
      · rintro rfl
        simp at hdigit
  rw [readValue.eq_6 _ _ (by simp [hmarks]) (by simp [hmarks]) (by simp [hmarks])
    (by simp [hmarks]), hread]

theorem readValue_writeText (s : String) (fuel : Nat) (rest : List Char) :
    readValue (fuel + 1) (writeText s ++ '\n' :: rest) = .ok (.text s, '\n' :: rest) := by
  have hread : readText (writeText s ++ '\n' :: rest) = .ok (s, '\n' :: rest) :=
    readText_writeText s (by simp)
  rw [writeText_append] at hread ⊢
  rw [readValue.eq_2, hread]
  rfl

theorem writeValue_eq_cons {v : Value} {depth : Nat} {written : List Char}
    (hv : v.isPlain = true) (hwritten : writeValue depth v = .ok written) :
    ∃ c more, written = c :: more ∧ isSpace c = false := by
  cases v with
  | int n =>
      obtain ⟨c, more, hcons, hc⟩ := Json.integerText_eq_cons n
      rw [writeValue, hcons] at hwritten
      refine ⟨c, more, ?_, ?_⟩
      · split at hwritten
        · cases hwritten
        · exact (Except.ok.inj hwritten).symm
      · rcases hc with rfl | hdigit
        · rfl
        · rw [Bool.eq_false_iff]
          intro hspace
          simp only [isSpace, Bool.or_eq_true, decide_eq_true_eq] at hspace
          rcases hspace with rfl | rfl <;> simp at hdigit
  | text s =>
      rw [writeValue] at hwritten
      obtain rfl := Except.ok.inj hwritten
      exact ⟨'"', _, rfl, rfl⟩
  | _ => cases hv

theorem readValue_writeValue {v : Value} {depth : Nat} {written : List Char}
    (hv : v.isPlain = true) (hwritten : writeValue depth v = .ok written) (fuel : Nat)
    (rest : List Char) :
    readValue (fuel + 1) (written ++ '\n' :: rest) = .ok (v, '\n' :: rest) := by
  cases v with
  | int n =>
      rw [writeValue] at hwritten
      cases hsize : Number.isOversized n with
      | true => simp [hsize] at hwritten
      | false =>
          obtain rfl : Number.integerText n = written := by simpa [hsize] using hwritten
          exact readValue_integerText hsize fuel rest
  | text s =>
      rw [writeValue] at hwritten
      obtain rfl := Except.ok.inj hwritten
      exact readValue_writeText s fuel rest
  | _ => cases hv

/-- A key and its value are read up to the end of their line. -/
theorem readPair_line (key : String) {v : Value} {depth : Nat} {written : List Char}
    (hv : v.isPlain = true) (hwritten : writeValue depth v = .ok written) (fuel : Nat)
    (rest : List Char) :
    readPair (fuel + 2) (writeKeyPart key ++ ' ' :: '=' :: ' ' :: (written ++ '\n' :: rest)) =
      .ok (([key], v), '\n' :: rest) := by
  have hequals : skipSpace (' ' :: '=' :: ' ' :: (written ++ '\n' :: rest)) =
      '=' :: ' ' :: (written ++ '\n' :: rest) := skipSpace_cons (c := '=') (by decide) _
  have hvalue : skipSpace (' ' :: (written ++ '\n' :: rest)) = written ++ '\n' :: rest := by
    obtain ⟨c, more, rfl, hc⟩ := writeValue_eq_cons hv hwritten
    exact skipSpace_cons hc _
  rw [readPair, readKey_writeKeyPart key _ (by simp; decide) (by rw [hequals]; simp), hequals]
  show (readValue (fuel + 1) (skipSpace (' ' :: (written ++ '\n' :: rest))) >>= fun found => _) = _
  rw [hvalue, readValue_writeValue hv hwritten]
  rfl

/-! ## Line ends -/

theorem escapedChar_no_return (c : Char) : '\r' ∉ escapedChar c := by
  unfold escapedChar
  split
  · rename_i h
    rcases h with rfl | rfl <;> decide
  split
  · decide
  split
  · decide
  rename_i hreturn
  split
  · decide
  split
  · decide
  split
  · rename_i h
    simp only [Bool.or_eq_true, Bool.and_eq_true, decide_eq_true_eq] at h
    exact Json.unitEscape_no_return (by omega)
  · simpa using Ne.symm hreturn

theorem writeText_no_return (s : String) : '\r' ∉ writeText s := by
  simp only [writeText, List.cons_append, List.mem_cons, List.mem_append, List.mem_flatMap,
    not_or]
  refine ⟨by decide, ?_, by decide⟩
  rintro ⟨c, -, hc⟩
  exact escapedChar_no_return c hc

theorem writeKeyPart_no_return (name : String) : '\r' ∉ writeKeyPart name := by
  unfold writeKeyPart
  split
  · rename_i h
    simp only [Bool.and_eq_true, List.all_eq_true] at h
    exact fun hmem => absurd (h.2 '\r' hmem) (by decide)
  · exact writeText_no_return name

theorem writeValue_no_return {v : Value} {depth : Nat} {written : List Char}
    (hv : v.isPlain = true) (hwritten : writeValue depth v = .ok written) : '\r' ∉ written := by
  cases v with
  | int n =>
      rw [writeValue] at hwritten
      split at hwritten
      · cases hwritten
      · exact Except.ok.inj hwritten ▸ Json.integerText_no_return n
  | text s =>
      rw [writeValue] at hwritten
      exact Except.ok.inj hwritten ▸ writeText_no_return s
  | _ => cases hv

theorem joinLineEnds_eq_self (hcs : '\r' ∉ cs) : joinLineEnds cs = cs := by
  induction cs with
  | nil => rfl
  | cons c cs ih =>
      rw [List.mem_cons, not_or] at hcs
      rw [joinLineEnds.eq_2 c cs fun _ h _ => hcs.1 h.symm, ih hcs.2]

end LinkShelf.Toml
