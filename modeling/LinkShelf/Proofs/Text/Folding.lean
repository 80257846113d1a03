import LinkShelf.Proofs.Text.Lower
import LinkShelf.Text.Blank
import Mathlib.Data.List.Basic

/-!
Case folding and white space. Main statements: what is folded already stays as it is
(`foldCase_foldCase`), and folding neither brings white space to the ends of a text nor takes any
away (`strip_foldCase`).
-/

namespace LinkShelf.Text

/-- Whether folding moves none of the code points between two others, of which only every second one
is meant where `alternate` says so. -/
def areFolded (alternate : Bool) (first last : Nat) : Bool :=
  foldRanges.all (CaseRange.avoids alternate first last) &&
    foldExpansions.all fun e => CaseRange.avoids alternate first last ⟨e.1, e.1, 2, 0⟩

/-- Whether the code points between two others are letters that folding leaves alone. -/
def areFoldedLetters (alternate : Bool) (first last : Nat) : Bool :=
  (Nat.ble 0x61 first && Nat.ble last 0x7A || Nat.ble 0xAA first) && Nat.blt last 0x110000 &&
    apartRanges.all (fun r => Nat.blt last r.1 || Nat.blt r.2 first) &&
    areFolded alternate first last

theorem areFoldedLetters_foldRanges :
    (foldRanges.all fun r =>
      handed (r.first + r.shift).toNat fun first =>
        handed (r.last + r.shift).toNat fun last =>
          areFoldedLetters r.alternates first last) = true := by
  decide +kernel

theorem areFoldedLetters_foldExpansions :
    (foldExpansions.all fun e => e.2.all fun n => areFoldedLetters false n n) = true := by
  decide +kernel

/-- Whether folding leaves a code point alone. -/
structure IsFoldedCode (n : Nat) : Prop where
  expansion : foldExpansions.lookup n = none
  unmoved : CaseRange.find? foldRanges n = none

theorem isFoldedCode_of_areFolded {alternate : Bool} {first last n : Nat}
    (h : areFolded alternate first last = true) (hfirst : first ≤ n) (hlast : n ≤ last)
    (halternate : alternate = true → (n + first) % 2 = 0) : IsFoldedCode n := by
  rw [areFolded, Bool.and_eq_true, List.all_eq_true, List.all_eq_true] at h
  obtain ⟨hranges, hexpansions⟩ := h
  constructor
  · apply List.lookup_eq_none_iff.mpr
    intro e he
    have hout := CaseRange.not_holds_of_avoids (hexpansions e he) hfirst hlast halternate
    apply bne_iff_ne.mpr
    rintro rfl
    simp [CaseRange.holds] at hout
  · apply CaseRange.find?_eq_none
    intro r hr
    exact CaseRange.not_holds_of_avoids (hranges r hr) hfirst hlast halternate

theorem bounds_of_areFoldedLetters {alternate : Bool} {first last : Nat}
    (h : areFoldedLetters alternate first last = true) :
    (0x61 ≤ first ∧ last ≤ 0x7A ∨ 0xAA ≤ first) ∧ last < 0x110000 ∧
      (∀ r ∈ apartRanges, last < r.1 ∨ r.2 < first) ∧ areFolded alternate first last = true := by
  simp only [areFoldedLetters, Bool.and_eq_true, Bool.or_eq_true, Nat.ble_eq, Nat.blt_eq,
    List.all_eq_true] at h
  obtain ⟨⟨⟨hletter, hbound⟩, hapart⟩, hfolded⟩ := h
  exact ⟨hletter, hbound, hapart, hfolded⟩

/-! ## Characters -/

/-- Whether folding leaves a character alone. -/
def IsFolded (c : Char) : Prop := IsFoldedCode c.toNat

theorem foldChar_of_isFolded {c : Char} (hc : IsFolded c) : foldChar c = [c] := by
  rw [foldChar, hc.expansion, hc.unmoved]

/-- What a character folds to is the character itself, or letters that folding leaves alone. -/
theorem foldChar_cases (c : Char) :
    foldChar c = [c] ∧ IsFolded c ∨
      foldChar c ≠ [] ∧ ∀ d ∈ foldChar c, isLowered d = true ∧ IsFolded d := by
  have hletter : ∀ n, isLoweredCode n = true → IsFoldedCode n →
      isLowered (Char.ofNat n) = true ∧ IsFolded (Char.ofNat n) := by
    intro n hlowered hfolded
    rw [isLowered, IsFolded, toNat_ofNat_of_isLoweredCode hlowered]
    exact ⟨hlowered, hfolded⟩
  cases hexpansion : foldExpansions.lookup c.toNat with
  | some ns =>
      right
      obtain ⟨front, back, hsplit, -⟩ := List.lookup_eq_some_iff.mp hexpansion
      have hmem : (c.toNat, ns) ∈ foldExpansions := by simp [hsplit]
      have hletters := List.all_eq_true.mp areFoldedLetters_foldExpansions _ hmem
      rw [foldChar, hexpansion]
      constructor
      · have hlong : ∀ e ∈ foldExpansions, e.2 ≠ [] := by decide
        simpa using hlong _ hmem
      · rintro d hd
        obtain ⟨n, hn, rfl⟩ := List.mem_map.mp hd
        obtain ⟨hcode, hbound, hapart, hfolded⟩ :=
          bounds_of_areFoldedLetters (List.all_eq_true.mp hletters n hn)
        apply hletter
        · exact isLoweredCode_of_apart hcode hbound hapart (Nat.le_refl n) (Nat.le_refl n)
        · exact isFoldedCode_of_areFolded hfolded (Nat.le_refl n) (Nat.le_refl n) (by simp)
  | none =>
      cases hfind : CaseRange.find? foldRanges c.toNat with
      | some moved =>
          right
          rw [foldChar, hexpansion, hfind]
          refine ⟨List.cons_ne_nil _ _, ?_⟩
          rintro d hd
          obtain rfl := List.mem_singleton.mp hd
          obtain ⟨r, hr, hholds, rfl⟩ := CaseRange.find?_eq_some hfind
          have hrow := List.all_eq_true.mp areFoldedLetters_foldRanges r hr
          rw [handed_eq, handed_eq] at hrow
          obtain ⟨hcode, hbound, hapart, hfolded⟩ := bounds_of_areFoldedLetters hrow
          obtain ⟨hlow, hhigh, halternate⟩ := CaseRange.moved_bounds hholds (by omega)
          apply hletter
          · exact isLoweredCode_of_apart hcode hbound hapart hlow hhigh
          · exact isFoldedCode_of_areFolded hfolded hlow hhigh halternate
      | none =>
          left
          rw [foldChar, hexpansion, hfind]
          exact ⟨rfl, hexpansion, hfind⟩

theorem isFolded_of_mem_foldChar {c d : Char} (hd : d ∈ foldChar c) : IsFolded d := by
  obtain ⟨hself, hc⟩ | ⟨-, hletters⟩ := foldChar_cases c
  · rw [hself, List.mem_singleton] at hd
    rwa [hd]
  · exact (hletters d hd).2

/-! ## White space -/

def blankRanges : List (Nat × Nat) :=
  [(9, 13), (28, 32), (0x85, 0x85), (0xA0, 0xA0), (0x1680, 0x1680), (0x2000, 0x200A),
    (0x2028, 0x2029), (0x202F, 0x202F), (0x205F, 0x205F), (0x3000, 0x3000)]

theorem isBlank_iff {c : Char} :
    isBlank c = true ↔ ∃ r ∈ blankRanges, r.1 ≤ c.toNat ∧ c.toNat ≤ r.2 := by
  simp only [isBlank, blankRanges, List.exists_mem_cons_iff, Bool.or_eq_true, Bool.and_eq_true,
    decide_eq_true_eq, beq_iff_eq]
  simp only [List.not_mem_nil, false_and, exists_false, or_false]
  omega

theorem isFolded_of_isBlank {c : Char} (hc : isBlank c = true) : IsFolded c := by
  have hranges : (blankRanges.all fun r => areFolded false r.1 r.2) = true := by decide +kernel
  obtain ⟨r, hr, hfirst, hlast⟩ := isBlank_iff.mp hc
  exact isFoldedCode_of_areFolded (List.all_eq_true.mp hranges r hr) hfirst hlast nofun

theorem isBlank_of_isLowered {c : Char} (hc : isLowered c = true) : isBlank c = false := by
  have hranges : ∀ r ∈ blankRanges, r.2 < 0x61 ∨ (0x7A < r.1 ∧ r.2 < 0xAA) ∨
      ∃ apart ∈ apartRanges, apart.1 ≤ r.1 ∧ r.2 ≤ apart.2 := by
    decide
  rw [isLowered, isLoweredCode, Bool.and_eq_true, Bool.and_eq_true, Bool.or_eq_true,
    Bool.and_eq_true, Bool.not_eq_true', inRanges, List.any_eq_false] at hc
  simp only [Bool.and_eq_true, decide_eq_true_eq] at hc
  obtain ⟨⟨hletter, hapart⟩, -⟩ := hc
  apply Bool.eq_false_iff.mpr
  intro hblank
  obtain ⟨r, hr, hfirst, hlast⟩ := isBlank_iff.mp hblank
  obtain hlow | hbetween | ⟨apart, hmem, hin⟩ := hranges r hr
  · omega
  · omega
  · have := hapart apart hmem
    omega

/-- A character and what it folds to are white space alike. -/
theorem isBlank_of_mem_foldChar {c d : Char} (hd : d ∈ foldChar c) : isBlank d = isBlank c := by
  by_cases hc : isBlank c = true
  · rw [foldChar_of_isFolded (isFolded_of_isBlank hc), List.mem_singleton] at hd
    rw [hd]
  · obtain ⟨hself, -⟩ | ⟨-, hletters⟩ := foldChar_cases c
    · rw [hself, List.mem_singleton] at hd
      rw [hd]
    · rw [Bool.eq_false_iff.mpr hc]
      exact isBlank_of_isLowered (hletters d hd).1

theorem foldChar_ne_nil (c : Char) : foldChar c ≠ [] := by
  obtain ⟨hself, -⟩ | ⟨hne, -⟩ := foldChar_cases c
  · rw [hself]
    nofun
  · exact hne

/-! ## Texts -/

variable {cs : List Char}

theorem foldCase_eq_nil_iff : foldCase cs = [] ↔ cs = [] := by
  cases cs with
  | nil => simp
  | cons c cs => simp [foldChar_ne_nil]

/-- Folding twice is folding once. -/
theorem foldCase_foldCase (cs : List Char) : foldCase (foldCase cs) = foldCase cs := by
  have hself : ∀ ds : List Char, (∀ d ∈ ds, IsFolded d) → foldCase ds = ds := by
    intro ds hds
    induction ds with
    | nil => rfl
    | cons d ds ih =>
        obtain ⟨hd, hds⟩ := List.forall_mem_cons.mp hds
        rw [foldCase_cons, foldChar_of_isFolded hd, ih hds]
        rfl
  apply hself
  intro d hd
  obtain ⟨c, -, hd⟩ := List.mem_flatMap.mp hd
  exact isFolded_of_mem_foldChar hd

/-- A text without white space at its ends has none there after folding. -/
theorem strip_foldCase (hcs : strip cs = cs) : strip (foldCase cs) = foldCase cs := by
  apply strip_eq_self
  · intro d hd
    cases cs with
    | nil => simp at hd
    | cons c cs =>
        have hc : isBlank c = false := head?_strip (c :: cs) (by rw [hcs]; rfl)
        rw [foldCase_cons, List.head?_append_of_ne_nil _ (foldChar_ne_nil c)] at hd
        rw [isBlank_of_mem_foldChar (List.mem_of_mem_head? hd), hc]
  · intro d hd
    obtain rfl | ⟨front, c, rfl⟩ := List.eq_nil_or_concat' cs
    · simp at hd
    · have hc : isBlank c = false := getLast?_strip (front ++ [c]) (by rw [hcs]; simp)
      rw [foldCase_append, foldCase_cons, foldCase_nil, List.append_nil,
        List.getLast?_append_of_ne_nil _ (foldChar_ne_nil c)] at hd
      rw [isBlank_of_mem_foldChar (List.mem_of_mem_getLast? hd), hc]

theorem isBlank_of_mem_lowerAfter {before : List Char} {c d : Char} (hc : isBlank c = false)
    (hd : d ∈ lowerAfter before [c]) : isBlank d = false := by
  obtain hmem | hlowered := (mem_lowerAfter hd).1
  · rw [List.mem_singleton.mp hmem, hc]
  · exact isBlank_of_isLowered hlowered

/-- A text without white space at its ends has none there in lower case. -/
theorem strip_lower (hcs : strip cs = cs) : strip (lower cs) = lower cs := by
  apply strip_eq_self
  · intro d hd
    cases cs with
    | nil => simp [lower, lowerAfter] at hd
    | cons c cs =>
        have hc : isBlank c = false := head?_strip (c :: cs) (by rw [hcs]; rfl)
        obtain ⟨front, hne, hfront, heq⟩ := exists_lowerAfter_cons [] c cs
        rw [lower, heq, List.head?_append_of_ne_nil _ hne] at hd
        obtain rfl | hlowered := hfront d (List.mem_of_mem_head? hd)
        · exact hc
        · exact isBlank_of_isLowered hlowered
  · intro d hd
    obtain rfl | ⟨front, c, rfl⟩ := List.eq_nil_or_concat' cs
    · simp [lower, lowerAfter] at hd
    · have hc : isBlank c = false := getLast?_strip (front ++ [c]) (by rw [hcs]; simp)
      obtain ⟨first, heq⟩ := exists_lowerAfter_append [] front [c]
      rw [lower, heq, List.getLast?_append_of_ne_nil _ (by simp)] at hd
      exact isBlank_of_mem_lowerAfter hc (List.mem_of_mem_getLast? hd)

end LinkShelf.Text
