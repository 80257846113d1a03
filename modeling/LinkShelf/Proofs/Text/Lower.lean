import LinkShelf.Text.Case
import LinkShelf.Url.Parts

/-!
The lower-case form of a text. Main statements: what is in lower case already stays as it is
(`lower_lower`), an ASCII text is lowered letter by letter (`lowerAfter_ascii`), and no character
that delimits anything comes about by lowering (`mem_lower`).
-/

namespace LinkShelf.Text

open Url (standsForDelimiter)

/-- A number handed on as it is; it is computed once wherever it is used. -/
def handed (n : Nat) (k : Nat → Bool) : Bool :=
  match n with
  | 0 => k 0
  | m + 1 => k (m + 1)

@[simp] theorem handed_eq (n : Nat) (k : Nat → Bool) : handed n k = k n := by
  cases n <;> rfl

/-- Whether a row moves none of the code points between two others, of which only every second one
is meant where `alternate` says so. -/
def CaseRange.avoids (alternate : Bool) (first last : Nat) (s : CaseRange) : Bool :=
  Nat.blt last s.first || Nat.blt s.last first ||
    (alternate && Nat.beq s.step 2 && Nat.beq ((first + s.first) % 2) 1)

/-- Ranges that no character is lowered into: the punctuation outside ASCII, and the two letters
whose lower case is not in the rows. -/
def apartRanges : List (Nat × Nat) :=
  [(0x130, 0x130), (0x3A3, 0x3A3), (0x1680, 0x1680), (0x2000, 0x2106), (0x2A74, 0x2A74),
    (0x3000, 0x3000), (0xD800, 0xDFFF), (0xFE13, 0xFF20)]

/-- Whether the code points between two others are letters in lower case, which no row moves. -/
def areLowered (alternate : Bool) (first last : Nat) : Bool :=
  (Nat.ble 0x61 first && Nat.ble last 0x7A || Nat.ble 0xAA first) && Nat.blt last 0x110000 &&
    apartRanges.all (fun r => Nat.blt last r.1 || Nat.blt r.2 first) &&
    lowerRanges.all (CaseRange.avoids alternate first last)

/-- Whether a row moves every second code point at most. -/
def CaseRange.alternates (r : CaseRange) : Bool := Nat.beq r.step 2 || Nat.beq r.first r.last

theorem areLowered_lowerRanges :
    (lowerRanges.all fun r =>
      handed (r.first + r.shift).toNat fun first =>
        handed (r.last + r.shift).toNat fun last => areLowered r.alternates first last) = true := by
  decide +kernel

theorem CaseRange.not_holds_of_avoids {alternate : Bool} {first last n : Nat} {s : CaseRange}
    (havoids : s.avoids alternate first last = true) (hfirst : first ≤ n) (hlast : n ≤ last)
    (halternate : alternate = true → (n + first) % 2 = 0) : s.holds n = false := by
  rw [CaseRange.avoids, Bool.or_eq_true, Bool.or_eq_true, Bool.and_eq_true, Bool.and_eq_true,
    Nat.blt_eq, Nat.blt_eq, Nat.beq_eq, Nat.beq_eq] at havoids
  rw [← Bool.not_eq_true, CaseRange.holds, Bool.and_eq_true, Bool.and_eq_true, decide_eq_true_eq,
    decide_eq_true_eq, beq_iff_eq]
  rintro ⟨⟨hlow, hhigh⟩, hstep⟩
  rcases havoids with (hbefore | hafter) | ⟨⟨halt, htwo⟩, hparity⟩
  · omega
  · omega
  · have := halternate halt
    rw [htwo] at hstep
    omega

theorem CaseRange.find?_eq_some {rows : List CaseRange} {n moved : Nat}
    (hfind : CaseRange.find? rows n = some moved) :
    ∃ r ∈ rows, r.holds n = true ∧ moved = (n + r.shift).toNat := by
  induction rows with
  | nil => simp [CaseRange.find?] at hfind
  | cons r rest ih =>
      rw [CaseRange.find?_cons] at hfind
      split at hfind
      · next hr => exact ⟨r, by simp, hr, (Option.some.inj hfind).symm⟩
      · obtain ⟨s, hs, hholds, hmoved⟩ := ih hfind
        exact ⟨s, by simp [hs], hholds, hmoved⟩

theorem CaseRange.find?_eq_none {rows : List CaseRange} {n : Nat}
    (hrows : ∀ r ∈ rows, r.holds n = false) : CaseRange.find? rows n = none := by
  induction rows with
  | nil => rfl
  | cons r rest ih =>
      rw [CaseRange.find?_cons, hrows r (by simp)]
      exact ih fun s hs => hrows s (by simp [hs])

/-- Whether a code point is one that lowering may lead to. -/
def isLoweredCode (n : Nat) : Bool :=
  ((0x61 ≤ n && n ≤ 0x7A) || 0xAA ≤ n) && !inRanges apartRanges n && n < 0x110000

theorem isLoweredCode_of_apart {first last n : Nat}
    (hletter : 0x61 ≤ first ∧ last ≤ 0x7A ∨ 0xAA ≤ first) (hbound : last < 0x110000)
    (hapart : ∀ r ∈ apartRanges, last < r.1 ∨ r.2 < first) (hfirst : first ≤ n)
    (hlast : n ≤ last) : isLoweredCode n = true := by
  rw [isLoweredCode, Bool.and_eq_true, Bool.and_eq_true, Bool.or_eq_true, Bool.and_eq_true,
    decide_eq_true_eq, decide_eq_true_eq, decide_eq_true_eq, decide_eq_true_eq,
    Bool.not_eq_true', inRanges, List.any_eq_false]
  refine ⟨⟨by omega, ?_⟩, by omega⟩
  intro range hrange
  have hout := hapart range hrange
  simp only [Bool.and_eq_true, decide_eq_true_eq, not_and]
  omega

/-- Where a row leads: between the places to which it leads from its ends, and at every second place
at most if it moves every second code point at most. -/
theorem CaseRange.moved_bounds {r : CaseRange} {n : Nat} (hholds : r.holds n = true)
    (hpos : 0 < (r.first + r.shift).toNat) :
    (r.first + r.shift).toNat ≤ (n + r.shift).toNat ∧
      (n + r.shift).toNat ≤ (r.last + r.shift).toNat ∧
      (r.alternates = true → ((n + r.shift).toNat + (r.first + r.shift).toNat) % 2 = 0) := by
  rw [CaseRange.holds, Bool.and_eq_true, Bool.and_eq_true, decide_eq_true_eq, decide_eq_true_eq,
    beq_iff_eq] at hholds
  obtain ⟨⟨hfirst, hlast⟩, hstep⟩ := hholds
  refine ⟨by omega, by omega, ?_⟩
  rw [CaseRange.alternates, Bool.or_eq_true, Nat.beq_eq, Nat.beq_eq]
  rintro (htwo | hsame)
  · rw [htwo] at hstep
    omega
  · omega

/-- A code point that the rows lead to is one of a letter in lower case, and they do not move it. -/
theorem find?_lowerRanges {n moved : Nat} (hfind : CaseRange.find? lowerRanges n = some moved) :
    isLoweredCode moved = true ∧ CaseRange.find? lowerRanges moved = none := by
  obtain ⟨r, hr, hholds, rfl⟩ := CaseRange.find?_eq_some hfind
  have hrow := List.all_eq_true.mp areLowered_lowerRanges r hr
  simp only [handed_eq, areLowered, Bool.and_eq_true, Bool.or_eq_true, Nat.ble_eq, Nat.blt_eq,
    List.all_eq_true] at hrow
  obtain ⟨⟨⟨hletter, hbound⟩, hapart⟩, havoids⟩ := hrow
  obtain ⟨hlow, hhigh, halternate⟩ := CaseRange.moved_bounds hholds (by omega)
  constructor
  · exact isLoweredCode_of_apart hletter hbound hapart hlow hhigh
  · apply CaseRange.find?_eq_none
    intro s hs
    exact CaseRange.not_holds_of_avoids (havoids s hs) hlow hhigh halternate

/-! ## Characters -/

theorem toNat_ofNat_of_isValidChar {n : Nat} (hvalid : n.isValidChar) :
    (Char.ofNat n).toNat = n := by
  rw [Char.ofNat, dif_pos hvalid]
  rfl

theorem toNat_ofNat_of_isLoweredCode {n : Nat} (hn : isLoweredCode n = true) :
    (Char.ofNat n).toNat = n := by
  have hvalid : n.isValidChar := by
    rw [isLoweredCode, Bool.and_eq_true, Bool.and_eq_true, Bool.not_eq_true', inRanges,
      List.any_eq_false, decide_eq_true_eq] at hn
    have hsurrogate := hn.1.2 (0xD800, 0xDFFF) (by decide)
    simp only [Bool.and_eq_true, decide_eq_true_eq, not_and] at hsurrogate
    rw [Nat.isValidChar]
    omega
  exact toNat_ofNat_of_isValidChar hvalid

/-- Whether a character is its own lower-case form wherever it stands. -/
structure IsLower (c : Char) : Prop where
  unmoved : CaseRange.find? lowerRanges c.toNat = none
  ne_dotted : c.toNat ≠ 0x130
  ne_sigma : c.toNat ≠ 0x3A3

/-- Whether a character is one that lowering may lead to. -/
def isLowered (c : Char) : Bool := isLoweredCode c.toNat

theorem isLower_of_isLowered {c : Char} (hc : isLowered c = true)
    (hunmoved : CaseRange.find? lowerRanges c.toNat = none) : IsLower c := by
  refine ⟨hunmoved, ?_, ?_⟩ <;>
  · intro hcode
    rw [isLowered, hcode] at hc
    revert hc
    decide

theorem mem_lowerChar {c d : Char} (hsigma : c.toNat ≠ 0x3A3) (hd : d ∈ lowerChar c) :
    (d = c ∨ isLowered d = true) ∧ IsLower d := by
  rw [lowerChar] at hd
  split at hd
  · rcases List.mem_cons.mp hd with rfl | hd
    · exact ⟨.inr (by decide), by decide, by decide, by decide⟩
    · obtain rfl := List.mem_singleton.mp hd
      exact ⟨.inr (by decide), by decide, by decide, by decide⟩
  · next hdotted =>
      split at hd
      · next n hfind =>
          obtain rfl := List.mem_singleton.mp hd
          obtain ⟨hcode, hunmoved⟩ := find?_lowerRanges hfind
          have hlowered : isLowered (Char.ofNat n) = true := by
            rw [isLowered, toNat_ofNat_of_isLoweredCode hcode]
            exact hcode
          refine ⟨.inr hlowered, isLower_of_isLowered hlowered ?_⟩
          rw [toNat_ofNat_of_isLoweredCode hcode]
          exact hunmoved
      · next hfind =>
          obtain rfl := List.mem_singleton.mp hd
          exact ⟨.inl rfl, hfind, hdotted, hsigma⟩

/-- What stands in the lower-case form of a text stood in the text, or is a letter. -/
theorem mem_lowerAfter {before cs : List Char} {d : Char} (hd : d ∈ lowerAfter before cs) :
    (d ∈ cs ∨ isLowered d = true) ∧ IsLower d := by
  induction cs generalizing before with
  | nil => simp [lowerAfter] at hd
  | cons c cs ih =>
      rw [lowerAfter] at hd
      split at hd
      · rcases List.mem_cons.mp hd with rfl | hd
        · split
          · exact ⟨.inr (by decide), by decide, by decide, by decide⟩
          · exact ⟨.inr (by decide), by decide, by decide, by decide⟩
        · obtain ⟨hmem, hlower⟩ := ih hd
          exact ⟨hmem.imp_left (List.mem_cons_of_mem c), hlower⟩
      · next hsigma =>
          rcases List.mem_append.mp hd with hd | hd
          · obtain ⟨hsame, hlower⟩ := mem_lowerChar hsigma hd
            exact ⟨hsame.imp_left fun h => by simp [h], hlower⟩
          · obtain ⟨hmem, hlower⟩ := ih hd
            exact ⟨hmem.imp_left (List.mem_cons_of_mem c), hlower⟩

theorem mem_lower {cs : List Char} {d : Char} (hd : d ∈ lower cs) : d ∈ cs ∨ isLowered d = true :=
  (mem_lowerAfter hd).1

theorem lowerAfter_append {before a rest : List Char} (ha : ∀ c ∈ a, IsLower c) :
    lowerAfter before (a ++ rest) = a ++ lowerAfter (a.reverse ++ before) rest := by
  induction a generalizing before with
  | nil => rfl
  | cons c a ih =>
      obtain ⟨hunmoved, hdotted, hsigma⟩ := ha c (by simp)
      rw [List.cons_append, lowerAfter, if_neg hsigma, lowerChar, if_neg hdotted, hunmoved,
        ih fun d hd => ha d (by simp [hd])]
      simp

theorem lowerAfter_of_isLower {before cs : List Char} (hcs : ∀ c ∈ cs, IsLower c) :
    lowerAfter before cs = cs := by
  have happend : lowerAfter before (cs ++ []) = cs ++ lowerAfter (cs.reverse ++ before) [] :=
    lowerAfter_append hcs
  simpa [lowerAfter] using happend

theorem lower_of_isLower {cs : List Char} (hcs : ∀ c ∈ cs, IsLower c) : lower cs = cs :=
  lowerAfter_of_isLower hcs

theorem isLower_of_mem_lower {cs : List Char} {d : Char} (hd : d ∈ lower cs) : IsLower d :=
  (mem_lowerAfter hd).2

/-- Lowering twice is lowering once. -/
theorem lower_lower (cs : List Char) : lower (lower cs) = lower cs :=
  lower_of_isLower fun _ => isLower_of_mem_lower

/-- No more characters that lowering does not lead to stand in the lower-case form of a text. -/
theorem count_lowerAfter_le {before cs : List Char} {c : Char} (hc : isLowered c = false) :
    (lowerAfter before cs).count c ≤ cs.count c := by
  have hne : ∀ {d : Char}, isLowered d = true → d ≠ c := by
    rintro d hd rfl
    simp [hc] at hd
  induction cs generalizing before with
  | nil => simp [lowerAfter]
  | cons d cs ih =>
      rw [lowerAfter]
      split
      · have hfinal : ∀ b : Bool, (if b then Char.ofNat 0x3C2 else Char.ofNat 0x3C3) ≠ c := by
          intro b
          cases b
          · exact hne (by decide)
          · exact hne (by decide)
        rw [List.count_cons_of_ne (hfinal _)]
        exact Nat.le_trans ih List.count_le_count_cons
      · have hchar : (lowerChar d).count c ≤ [d].count c := by
          rw [lowerChar]
          split
          · rw [List.count_cons_of_ne (hne (by decide)), List.count_cons_of_ne (hne (by decide))]
            simp
          · split
            · next n hfind =>
                have hcode := (find?_lowerRanges hfind).1
                have hlowered : isLowered (Char.ofNat n) = true := by
                  rw [isLowered, toNat_ofNat_of_isLoweredCode hcode]
                  exact hcode
                rw [List.count_cons_of_ne (hne hlowered)]
                simp
            · exact Nat.le_refl _
        rw [List.count_append, List.count_cons (l := cs), Nat.add_comm (cs.count c)]
        have hone : [d].count c = if d == c then 1 else 0 := by simp [List.count_cons]
        rw [hone] at hchar
        exact Nat.add_le_add hchar ih

theorem lowerChar_of_isLower {c : Char} (hc : IsLower c) : lowerChar c = [c] := by
  rw [lowerChar, if_neg hc.ne_dotted, hc.unmoved]

theorem count_le_count_lowerAfter {before cs : List Char} {c : Char} (hc : IsLower c) :
    cs.count c ≤ (lowerAfter before cs).count c := by
  induction cs generalizing before with
  | nil => simp
  | cons d cs ih =>
      by_cases hd : d = c
      · subst hd
        rw [lowerAfter, if_neg hc.ne_sigma, lowerChar_of_isLower hc, List.singleton_append,
          List.count_cons_self, List.count_cons_self]
        exact Nat.add_le_add_right ih 1
      · rw [List.count_cons_of_ne hd, lowerAfter]
        split
        · exact Nat.le_trans ih List.count_le_count_cons
        · rw [List.count_append]
          exact Nat.le_trans ih (Nat.le_add_left _ _)

/-- Whether lowering has nothing to do with a character: it neither moves it nor leads to it. -/
structure IsCaseless (c : Char) : Prop where
  isLower : IsLower c
  not_lowered : isLowered c = false

instance (c : Char) : Decidable (IsCaseless c) :=
  decidable_of_iff (CaseRange.find? lowerRanges c.toNat = none ∧ c.toNat ≠ 0x130 ∧
      c.toNat ≠ 0x3A3 ∧ isLowered c = false)
    ⟨fun ⟨hunmoved, hdotted, hsigma, hlowered⟩ => ⟨⟨hunmoved, hdotted, hsigma⟩, hlowered⟩,
      fun ⟨⟨hunmoved, hdotted, hsigma⟩, hlowered⟩ => ⟨hunmoved, hdotted, hsigma, hlowered⟩⟩

theorem count_lower {cs : List Char} {c : Char} (hc : IsCaseless c) :
    (lower cs).count c = cs.count c :=
  Nat.le_antisymm (count_lowerAfter_le hc.not_lowered) (count_le_count_lowerAfter hc.isLower)

/-! ## ASCII -/

theorem lowerChar_ascii {c : Char} (hc : c.toNat < 128) : lowerChar c = [c.toLower] := by
  have hcodes : ∀ n < 128, lowerChar (Char.ofNat n) = [(Char.ofNat n).toLower] := by
    decide +kernel
  have hself := hcodes c.toNat hc
  rwa [Char.ofNat_toNat] at hself

theorem lowerAfter_ascii {before a rest : List Char} (ha : ∀ c ∈ a, c.toNat < 128) :
    lowerAfter before (a ++ rest) =
      a.map Char.toLower ++ lowerAfter (a.reverse ++ before) rest := by
  induction a generalizing before with
  | nil => rfl
  | cons c a ih =>
      have hc := ha c (by simp)
      rw [List.cons_append, lowerAfter, if_neg (by omega), lowerChar_ascii hc,
        ih fun d hd => ha d (by simp [hd])]
      simp

theorem lower_ascii {a : List Char} (ha : ∀ c ∈ a, c.toNat < 128) :
    lower a = a.map Char.toLower := by
  have hlower : lowerAfter [] (a ++ []) = a.map Char.toLower ++ lowerAfter (a.reverse ++ []) [] :=
    lowerAfter_ascii ha
  simpa [lower, lowerAfter] using hlower

theorem find?_lowerRanges_of_not_ascii {n moved : Nat} (hn : 128 ≤ n)
    (hfind : CaseRange.find? lowerRanges n = some moved) : 128 ≤ moved ∨ moved = 0x6B := by
  have hrows : ∀ r ∈ lowerRanges, 128 ≤ r.last →
      128 ≤ (r.first + r.shift).toNat ∨
        ((r.first + r.shift).toNat = 0x6B ∧ (r.last + r.shift).toNat = 0x6B) := by
    decide +kernel
  obtain ⟨r, hr, hholds, rfl⟩ := CaseRange.find?_eq_some hfind
  rw [CaseRange.holds, Bool.and_eq_true, Bool.and_eq_true, decide_eq_true_eq,
    decide_eq_true_eq] at hholds
  have := hrows r hr (by omega)
  omega

/-- Outside ASCII nothing is lowered into ASCII but to an `i` or a `k`. -/
theorem lowerChar_of_not_ascii {c d : Char} (hc : 128 ≤ c.toNat) (hd : d ∈ lowerChar c) :
    128 ≤ d.toNat ∨ d = 'i' ∨ d = 'k' := by
  rw [lowerChar] at hd
  split at hd
  · rcases List.mem_cons.mp hd with rfl | hd
    · exact .inr (.inl rfl)
    · obtain rfl := List.mem_singleton.mp hd
      exact .inl (by decide)
  · split at hd
    · next n hfind =>
        obtain rfl := List.mem_singleton.mp hd
        rw [toNat_ofNat_of_isLoweredCode (find?_lowerRanges hfind).1]
        rcases find?_lowerRanges_of_not_ascii hc hfind with hn | rfl
        · exact .inl hn
        · exact .inr (.inr rfl)
    · obtain rfl := List.mem_singleton.mp hd
      exact .inl hc

theorem lowerChar_ne_nil (c : Char) : lowerChar c ≠ [] := by
  rw [lowerChar]
  split
  · simp
  · split <;> simp

@[simp] theorem lowerAfter_eq_nil_iff {before cs : List Char} :
    lowerAfter before cs = [] ↔ cs = [] := by
  cases cs with
  | nil => simp [lowerAfter]
  | cons c cs =>
      rw [lowerAfter]
      split
      · simp
      · simp [lowerChar_ne_nil]

theorem lower_eq_nil_iff {cs : List Char} : lower cs = [] ↔ cs = [] := lowerAfter_eq_nil_iff

theorem exists_lowerAfter_cons (before : List Char) (c : Char) (cs : List Char) :
    ∃ front, front ≠ [] ∧ (∀ d ∈ front, d = c ∨ isLowered d = true) ∧
      lowerAfter before (c :: cs) = front ++ lowerAfter (c :: before) cs := by
  rw [lowerAfter]
  split
  · refine ⟨[_], by simp, ?_, rfl⟩
    rw [List.forall_mem_singleton]
    right
    split <;> decide
  · next hsigma =>
      exact ⟨lowerChar c, lowerChar_ne_nil c, fun d hd => (mem_lowerChar hsigma hd).1, rfl⟩

/-- What follows in a text is lowered after what stands before it, whatever that becomes. -/
theorem exists_lowerAfter_append (before a cs : List Char) :
    ∃ front, lowerAfter before (a ++ cs) = front ++ lowerAfter (a.reverse ++ before) cs := by
  induction a generalizing before with
  | nil => exact ⟨[], rfl⟩
  | cons c a ih =>
      obtain ⟨first, -, -, hfirst⟩ := exists_lowerAfter_cons before c (a ++ cs)
      obtain ⟨front, hfront⟩ := ih (c :: before)
      refine ⟨first ++ front, ?_⟩
      rw [List.cons_append, hfirst, hfront]
      simp

/-- A text whose lower-case form starts with an ASCII text without an `i` or a `k` starts with that
text in some case. -/
theorem exists_of_prefix_lowerAfter {before cs front : List Char}
    (hfront : front <+: lowerAfter before cs)
    (hascii : ∀ c ∈ front, c.toNat < 128 ∧ c ≠ 'i' ∧ c ≠ 'k') :
    ∃ a rest, cs = a ++ rest ∧ a.map Char.toLower = front ∧ ∀ c ∈ a, c.toNat < 128 := by
  induction cs generalizing before front with
  | nil =>
      rw [lowerAfter, List.prefix_nil] at hfront
      exact ⟨[], [], rfl, hfront.symm, by simp⟩
  | cons c cs ih =>
      cases front with
      | nil => exact ⟨[], c :: cs, rfl, rfl, by simp⟩
      | cons d front =>
          obtain ⟨hd, hdi, hdk⟩ := hascii d (by simp)
          have hc : c.toNat < 128 := by
            apply Nat.lt_of_not_le
            intro hc
            rw [lowerAfter] at hfront
            split at hfront
            · obtain ⟨rfl, -⟩ := List.cons_prefix_cons.mp hfront
              split at hd
              · exact absurd hd (by decide)
              · exact absurd hd (by decide)
            · obtain ⟨e, more, he⟩ := List.exists_cons_of_ne_nil (lowerChar_ne_nil c)
              rw [he, List.cons_append, List.cons_prefix_cons] at hfront
              have hmem : d ∈ lowerChar c := by simp [he, hfront.1]
              rcases lowerChar_of_not_ascii hc hmem with h | h | h
              · omega
              · exact hdi h
              · exact hdk h
          rw [lowerAfter, if_neg (by omega), lowerChar_ascii hc, List.singleton_append,
            List.cons_prefix_cons] at hfront
          obtain ⟨a, rest, rfl, ha, hmem⟩ := ih hfront.2 fun e he => hascii e (by simp [he])
          refine ⟨c :: a, rest, rfl, by simp [ha, hfront.1], ?_⟩
          simpa [hc] using hmem

end LinkShelf.Text
