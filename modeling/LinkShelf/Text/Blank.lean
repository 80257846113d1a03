/-!
White space in Unicode's sense and the removal of it from the ends of a text. Main statements: a
stripped text neither starts nor ends with white space (`head?_strip`, `getLast?_strip`), and
stripping it again changes nothing (`strip_strip`).
-/

namespace LinkShelf.Text

/-- White space: the ASCII blanks and separators, the next-line and no-break spaces, and the
spaces and line separators of the general punctuation block. -/
def isBlank (c : Char) : Bool :=
  let n := c.toNat
  (9 ≤ n && n ≤ 13) || (28 ≤ n && n ≤ 32) || n == 0x85 || n == 0xA0 || n == 0x1680 ||
    (0x2000 ≤ n && n ≤ 0x200A) || n == 0x2028 || n == 0x2029 || n == 0x202F || n == 0x205F ||
    n == 0x3000

/-- The text without the characters in `p` at its end. -/
def dropEndWhile (p : Char → Bool) : List Char → List Char
  | [] => []
  | c :: cs =>
    match dropEndWhile p cs with
    | [] => if p c then [] else [c]
    | d :: ds => c :: d :: ds

/-- The text without the white space at its end. -/
def stripEnd (cs : List Char) : List Char := dropEndWhile isBlank cs

/-- The text without the white space at its ends. -/
def strip (cs : List Char) : List Char := stripEnd (cs.dropWhile isBlank)

theorem dropEndWhile_cons (p : Char → Bool) (c : Char) (cs : List Char) :
    dropEndWhile p (c :: cs) =
      if dropEndWhile p cs = [] ∧ p c = true then [] else c :: dropEndWhile p cs := by
  cases h : dropEndWhile p cs with
  | nil => cases hp : p c <;> simp [dropEndWhile, h, hp]
  | cons d ds => simp [dropEndWhile, h]

theorem dropEndWhile_eq_nil_iff (p : Char → Bool) (cs : List Char) :
    dropEndWhile p cs = [] ↔ ∀ c ∈ cs, p c = true := by
  induction cs with
  | nil => simp [dropEndWhile]
  | cons c cs ih =>
    rw [dropEndWhile_cons, List.forall_mem_cons, ← ih]
    split
    · rename_i h
      simp [h.1, h.2]
    · rename_i h
      simp only [reduceCtorEq, false_iff]
      exact fun hcs => h ⟨hcs.2, hcs.1⟩

theorem dropEndWhile_prefix (p : Char → Bool) (cs : List Char) : dropEndWhile p cs <+: cs := by
  induction cs with
  | nil => simp [dropEndWhile]
  | cons c cs ih =>
    rw [dropEndWhile_cons]
    split
    · exact List.nil_prefix
    · simpa using ih

theorem getLast?_dropEndWhile (p : Char → Bool) (cs : List Char) {c : Char}
    (h : (dropEndWhile p cs).getLast? = some c) : p c = false := by
  induction cs with
  | nil => simp [dropEndWhile] at h
  | cons d ds ih =>
    rw [dropEndWhile_cons] at h
    split at h
    · simp at h
    · rename_i hn
      cases hd : dropEndWhile p ds with
      | nil =>
        simp only [hd, true_and, Bool.not_eq_true] at hn
        simp only [hd, List.getLast?_singleton, Option.some.injEq] at h
        exact h ▸ hn
      | cons e es =>
        rw [hd] at h ih
        rw [List.getLast?_cons_cons] at h
        exact ih h

theorem dropEndWhile_of_getLast? (p : Char → Bool) (cs : List Char)
    (h : ∀ c, cs.getLast? = some c → p c = false) : dropEndWhile p cs = cs := by
  induction cs with
  | nil => rfl
  | cons c cs ih =>
    rw [dropEndWhile_cons]
    cases cs with
    | nil => simp [dropEndWhile, h c rfl]
    | cons d ds => simp [ih (fun e he => h e (by rw [List.getLast?_cons_cons]; exact he))]

theorem head?_dropWhile (p : Char → Bool) (cs : List Char) {c : Char}
    (h : (cs.dropWhile p).head? = some c) : p c = false := by
  induction cs with
  | nil => simp at h
  | cons d ds ih =>
    rw [List.dropWhile_cons] at h
    split at h
    · exact ih h
    · rename_i hd
      simp only [List.head?_cons, Option.some.injEq] at h
      exact h ▸ Bool.not_eq_true _ ▸ hd

/-- A stripped text does not start with white space. -/
theorem head?_strip (cs : List Char) {c : Char} (h : (strip cs).head? = some c) :
    isBlank c = false := by
  refine head?_dropWhile isBlank cs ?_
  obtain ⟨rest, hrest⟩ := dropEndWhile_prefix isBlank (cs.dropWhile isBlank)
  change strip cs ++ rest = _ at hrest
  rw [← hrest]
  cases hs : strip cs with
  | nil => simp [hs] at h
  | cons d ds => simpa [hs] using h

/-- A stripped text does not end with white space. -/
theorem getLast?_strip (cs : List Char) {c : Char} (h : (strip cs).getLast? = some c) :
    isBlank c = false :=
  getLast?_dropEndWhile isBlank _ h

theorem strip_eq_self {cs : List Char} (hhead : ∀ c, cs.head? = some c → isBlank c = false)
    (hlast : ∀ c, cs.getLast? = some c → isBlank c = false) : strip cs = cs := by
  have hdrop : cs.dropWhile isBlank = cs := by
    cases cs with
    | nil => rfl
    | cons c cs => rw [List.dropWhile_cons, hhead c rfl]; rfl
  rw [strip, hdrop, stripEnd, dropEndWhile_of_getLast? isBlank cs hlast]

/-- Stripping twice is stripping once. -/
@[simp] theorem strip_strip (cs : List Char) : strip (strip cs) = strip cs :=
  strip_eq_self (fun _ => head?_strip cs) (fun _ => getLast?_strip cs)

theorem dropWhile_eq_nil_iff (p : Char → Bool) (cs : List Char) :
    cs.dropWhile p = [] ↔ ∀ c ∈ cs, p c = true := by
  induction cs with
  | nil => simp
  | cons c cs ih =>
    rw [List.dropWhile_cons, List.forall_mem_cons]
    split <;> simp_all

theorem strip_eq_nil_iff (cs : List Char) : strip cs = [] ↔ ∀ c ∈ cs, isBlank c = true := by
  constructor
  · intro h
    rw [← dropWhile_eq_nil_iff]
    rw [strip, stripEnd, dropEndWhile_eq_nil_iff] at h
    cases hd : cs.dropWhile isBlank with
    | nil => rfl
    | cons c ds =>
      have hc : isBlank c = false := head?_dropWhile isBlank cs (by rw [hd]; rfl)
      simp [hd, hc] at h
  · intro h
    rw [strip, (dropWhile_eq_nil_iff isBlank cs).2 h]
    rfl

end LinkShelf.Text
