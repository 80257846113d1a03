import LinkShelf.Json.Display
import LinkShelf.Proofs.Json.TextRoundTrip
import LinkShelf.Proofs.Number.Digits
import LinkShelf.Proofs.Outcome
import LinkShelf.Proofs.Text.Pieces
import Mathlib.Data.List.TakeWhile

/-!
JSON values that are written and read again, if they have no floating-point numbers in them and the
members of each object have distinct names. Main statements: reading what was written gives the
value back if no integer in it is oversized (`read_write`), and refuses it otherwise
(`read_write_of_hasOversized`).
-/

namespace LinkShelf.Json

open Text

mutual

/-- Whether a value has no floating-point number in it and no two members of one name. -/
def isExact : Json → Bool
  | .float _ => false
  | .list items => areExact items
  | .object members => areMembersExact members
  | _ => true

def areExact : List Json → Bool
  | [] => true
  | v :: rest => isExact v && areExact rest

def areMembersExact : List (String × Json) → Bool
  | [] => true
  | (name, v) :: rest =>
    isExact v && !(rest.any fun m => m.1 == name) && areMembersExact rest

end

/-- Whether something is read as it was written or, where an integer in it has too many digits,
refused. -/
inductive ReadsAs : Bool → α → Except Stop α → Prop
  | whole (found : α) : ReadsAs false found (.ok found)
  | refused (found : α) (digits : Nat) : ReadsAs true found (.error (.oversized digits))

/-- What is read in sequence is refused where any part of it is. -/
theorem ReadsAs.bind {first second : Bool} {a : α} {b : β} {result : Except Stop α}
    {next : α → Except Stop β} (h : ReadsAs first a result)
    (hnext : ReadsAs second b (next a)) : ReadsAs (first || second) b (result >>= next) := by
  cases h with
  | whole => exact hnext
  | refused _ digits => exact .refused b digits

theorem ReadsAs.bind_pure {oversized : Bool} {a : α} {b : β} {result : Except Stop α}
    {next : α → Except Stop β} (h : ReadsAs oversized a result) (hnext : next a = .ok b) :
    ReadsAs oversized b (result >>= next) := by
  have hwhole : ReadsAs false b (next a) := hnext ▸ .whole b
  rw [← Bool.or_false oversized]
  exact h.bind hwhole

/-- Whether a number that ends in front of a text is not continued by it. -/
def EndsNumber (rest : List Char) : Prop :=
  ∀ c, rest.head? = some c → c.isDigit = false ∧ c ≠ '.' ∧ c ≠ 'e' ∧ c ≠ 'E'

theorem endsNumber_cons {c : Char} (hc : c.isDigit = false ∧ c ≠ '.' ∧ c ≠ 'e' ∧ c ≠ 'E')
    (rest : List Char) : EndsNumber (c :: rest) := by
  intro d hd
  obtain rfl : c = d := by simpa using hd
  exact hc

theorem endsNumber_breakLine (l : Layout) (depth : Nat) {c : Char}
    (hc : c.isDigit = false ∧ c ≠ '.' ∧ c ≠ 'e' ∧ c ≠ 'E') (rest : List Char) :
    EndsNumber (l.breakLine depth ++ c :: rest) := by
  unfold Layout.breakLine
  split
  · exact endsNumber_cons (by decide) _
  · exact endsNumber_cons hc rest

theorem endsNumber_separator (l : Layout) (depth : Nat) (rest : List Char) :
    EndsNumber (l.separator depth ++ rest) := by
  unfold Layout.separator
  split <;> exact endsNumber_cons (by decide) _

theorem skipSpace_cons {c : Char} (hc : isSpace c = false) (rest : List Char) :
    skipSpace (c :: rest) = c :: rest := by
  simp [skipSpace, hc]

theorem skipSpace_breakLine (l : Layout) (depth : Nat) (cs : List Char) :
    skipSpace (l.breakLine depth ++ cs) = skipSpace cs := by
  unfold Layout.breakLine
  split
  · rw [skipSpace, skipSpace, List.cons_append, List.dropWhile_cons_of_pos (by decide)]
    exact List.dropWhile_append_of_pos (by
      intro c hc
      rw [List.eq_of_mem_replicate hc]
      decide)
  · rfl

theorem skipSpace_separator (l : Layout) (depth : Nat) (cs : List Char) :
    ∃ more, l.separator depth ++ cs = ',' :: more ∧ skipSpace more = skipSpace cs := by
  unfold Layout.separator
  split
  · exact ⟨l.breakLine depth ++ cs, rfl, skipSpace_breakLine l depth cs⟩
  · exact ⟨' ' :: cs, rfl, by simp [skipSpace, isSpace]⟩

theorem length_separator_pos (l : Layout) (depth : Nat) : 0 < (l.separator depth).length := by
  unfold Layout.separator
  split <;> simp

/-! ## Numbers -/

theorem asciiDigits_append {digits rest : List Char} (hdigits : ∀ c ∈ digits, c.isDigit = true)
    (hrest : EndsNumber rest) : asciiDigits (digits ++ rest) = (digits, rest) :=
  span_append hdigits fun c hc => (hrest c hc).1

theorem wholePart?_toDigits (n : Nat) {rest : List Char} (hrest : EndsNumber rest) :
    wholePart? (Nat.toDigits 10 n ++ rest) = some (Nat.toDigits 10 n, rest) := by
  rcases Nat.eq_zero_or_pos n with rfl | hn
  · rfl
  · obtain ⟨c, more, hdigits, hc⟩ := Number.toDigits_eq_cons hn
    have hspan : asciiDigits (Nat.toDigits 10 n ++ rest) = (Nat.toDigits 10 n, rest) :=
      asciiDigits_append (fun c hc => Number.isDigit_of_mem_toDigits hc) hrest
    rw [hdigits] at hspan ⊢
    unfold wholePart?
    split
    · rename_i heq
      exact absurd (List.cons.inj heq).1 hc
    · rw [hspan]

theorem fractionPart?_of_endsNumber {rest : List Char} (hrest : EndsNumber rest) :
    fractionPart? rest = none := by
  unfold fractionPart?
  split
  · exact absurd rfl (hrest '.' rfl).2.1
  · rfl

theorem exponentPart?_of_endsNumber {rest : List Char} (hrest : EndsNumber rest) :
    exponentPart? rest = none := by
  cases rest with
  | nil => rfl
  | cons c rest =>
      obtain ⟨-, -, hlower, hupper⟩ := hrest c rfl
      simp [exponentPart?, hlower, hupper]

theorem readNumber_negative (n : Nat) {rest : List Char} (hrest : EndsNumber rest) :
    readNumber (some Number.maxDigits) ('-' :: (Nat.toDigits 10 n ++ rest)) =
      if Number.maxDigits < (Nat.toDigits 10 n).length then
        .error (.oversized (Nat.toDigits 10 n).length)
      else .ok (.int (-n), rest) := by
  simp only [readNumber, wholePart?_toDigits n hrest, fractionPart?_of_endsNumber hrest,
    exponentPart?_of_endsNumber hrest, Option.any_some, decide_eq_true_eq,
    Number.numberOf_toDigits, if_true]

theorem readNumber_natural (n : Nat) {rest : List Char} (hrest : EndsNumber rest) :
    readNumber (some Number.maxDigits) (Nat.toDigits 10 n ++ rest) =
      if Number.maxDigits < (Nat.toDigits 10 n).length then
        .error (.oversized (Nat.toDigits 10 n).length)
      else .ok (.int n, rest) := by
  have hstart : ∀ more, Nat.toDigits 10 n ++ rest = '-' :: more → False :=
    Number.toDigits_append_ne_cons n (by decide) rest
  unfold readNumber
  simp only [wholePart?_toDigits n hrest, fractionPart?_of_endsNumber hrest,
    exponentPart?_of_endsNumber hrest, Option.any_some, decide_eq_true_eq,
    Number.numberOf_toDigits, Bool.false_eq_true, if_false]

theorem readNumber_integerText (n : Int) {rest : List Char} (hrest : EndsNumber rest) :
    ReadsAs (Number.isOversized n) (.int n, rest)
      (readNumber (some Number.maxDigits) (Number.integerText n ++ rest)) := by
  have hresult : readNumber (some Number.maxDigits) (Number.integerText n ++ rest) =
      if Number.maxDigits < (Nat.toDigits 10 n.natAbs).length then
        .error (.oversized (Nat.toDigits 10 n.natAbs).length)
      else .ok (.int n, rest) := by
    by_cases hneg : n < 0
    · rw [Number.integerText, if_pos hneg, List.cons_append, readNumber_negative _ hrest,
        Int.ofNat_natAbs_of_nonpos (by omega), Int.neg_neg]
    · rw [Number.integerText, if_neg hneg, readNumber_natural _ hrest,
        Int.natAbs_of_nonneg (by omega)]
  rw [hresult]
  by_cases hsize : Number.maxDigits < (Nat.toDigits 10 n.natAbs).length
  · rw [(Number.isOversized_iff n).mpr hsize, if_pos hsize]
    exact .refused _ _
  · rw [Bool.eq_false_iff.mpr (mt (Number.isOversized_iff n).mp hsize), if_neg hsize]
    exact .whole _

/-- An integer starts with a digit or a minus sign. -/
theorem integerText_eq_cons (n : Int) :
    ∃ c more, Number.integerText n = c :: more ∧ (c = '-' ∨ c.isDigit = true) := by
  unfold Number.integerText
  split
  · exact ⟨'-', _, rfl, Or.inl rfl⟩
  · obtain ⟨c, digits, hdigits⟩ :=
      List.exists_cons_of_ne_nil (Nat.toDigits_ne_nil (n := n.natAbs) (b := 10))
    exact ⟨c, digits, hdigits,
      Or.inr (Number.isDigit_of_mem_toDigits (n := n.natAbs) (by simp [hdigits]))⟩

/-! ## Values -/

/-- A value starts with a character that no white space and no closing bracket is. -/
theorem writeAt_eq_cons (l : Layout) (depth : Nat) (v : Json) (hv : v.isExact = true) :
    ∃ c more, writeAt l depth v = c :: more ∧ isSpace c = false ∧ c ≠ ']' ∧ c ≠ '}' ∧
      c ≠ Char.ofNat 0xFEFF := by
  cases v with
  | null => exact ⟨'n', _, rfl, by decide⟩
  | bool b => cases b <;> exact ⟨_, _, rfl, by decide⟩
  | int n =>
      obtain ⟨c, more, htext, hc⟩ := integerText_eq_cons n
      refine ⟨c, more, htext, ?_⟩
      rcases hc with rfl | hdigit
      · decide
      · refine ⟨?_, ?_, ?_, ?_⟩
        · by_contra hspace
          simp only [isSpace, Bool.not_eq_false, Bool.or_eq_true, decide_eq_true_eq] at hspace
          rcases hspace with ((rfl | rfl) | rfl) | rfl <;> simp at hdigit
        all_goals
          rintro rfl
          simp at hdigit
  | float x => simp [isExact] at hv
  | text s => exact ⟨'"', _, rfl, by decide⟩
  | list items => cases items <;> exact ⟨'[', _, rfl, by decide⟩
  | object members => cases members <;> exact ⟨'{', _, rfl, by decide⟩

theorem length_writeAt_pos (l : Layout) (depth : Nat) (v : Json) (hv : v.isExact = true) :
    0 < (writeAt l depth v).length := by
  obtain ⟨c, more, htext, -⟩ := writeAt_eq_cons l depth v hv
  simp [htext]

theorem readWord?_digit {c : Char} (hc : c.isDigit = true) (rest : List Char) :
    readWord? (c :: rest) = none ∧ readWord? ('-' :: c :: rest) = none := by
  have hne : ∀ d : Char, d.isDigit = false → (d == c) = false := by
    intro d hd
    rw [beq_eq_false_iff_ne]
    rintro rfl
    simp [hd] at hc
  have hminus := hne '-' rfl
  constructor <;>
    simp [readWord?, words, List.isPrefixOf, hne 'n' rfl, hne 't' rfl, hne 'f' rfl, hne 'N' rfl,
      hne 'I' rfl, hminus]

theorem readWord?_integerText (n : Int) (rest : List Char) :
    readWord? (Number.integerText n ++ rest) = none := by
  obtain ⟨c, digits, hdigits⟩ :=
    List.exists_cons_of_ne_nil (Nat.toDigits_ne_nil (n := n.natAbs) (b := 10))
  have hc : c.isDigit = true :=
    Number.isDigit_of_mem_toDigits (n := n.natAbs) (by simp [hdigits])
  unfold Number.integerText
  rw [hdigits]
  split
  · exact (readWord?_digit hc _).2
  · exact (readWord?_digit hc _).1

theorem readValue_integer (n : Int) (fuel : Nat) {rest : List Char} (hrest : EndsNumber rest) :
    ReadsAs (Number.isOversized n) (.int n, rest)
      (readValue (some Number.maxDigits) (fuel + 1) (Number.integerText n ++ rest)) := by
  obtain ⟨c, more, htext, hc⟩ := integerText_eq_cons n
  have hnumber := readNumber_integerText n hrest
  have hword := readWord?_integerText n rest
  rw [htext, List.cons_append] at hnumber hword ⊢
  have hmarks : c ≠ '"' ∧ c ≠ '[' ∧ c ≠ '{' := by
    rcases hc with rfl | hdigit
    · decide
    · refine ⟨?_, ?_, ?_⟩ <;>
      · rintro rfl
        simp at hdigit
  rw [readValue.eq_5 _ _ _ (by simp [hmarks]) (by simp [hmarks]) (by simp [hmarks]), hword]
  exact hnumber

theorem readValue_text (fuel : Nat) (asciiOnly : Bool) (s : String) (rest : List Char) :
    readValue (some Number.maxDigits) (fuel + 1) (writeText asciiOnly s ++ rest) =
      .ok (.text s, rest) := by
  obtain ⟨body, htext, hbody⟩ := readTextBody_writeText asciiOnly s rest
  rw [htext, readValue.eq_2, hbody]
  change Except.ok (Json.text (String.ofList s.toList), rest) = _
  rw [String.ofList_toList]

/-- A member comes after those found before it, if it has a name of its own. -/
theorem putMember_of_new {name : String} {found : List (String × Json)}
    (hname : ∀ m ∈ found, m.1 ≠ name) (v : Json) :
    putMember name v found = found ++ [(name, v)] := by
  induction found with
  | nil => rfl
  | cons m found ih =>
      rw [putMember, if_neg (hname m (by simp)), ih fun m' hm' => hname m' (by simp [hm'])]
      rfl

/-- Values whose texts are no longer than the fuel are read. -/
def ReadsValues (l : Layout) (fuel : Nat) : Prop :=
  ∀ (v : Json) (depth : Nat) (rest : List Char), v.isExact = true → EndsNumber rest →
    (writeAt l depth v).length ≤ fuel →
    ReadsAs v.hasOversized (v, rest)
      (readValue (some Number.maxDigits) fuel (writeAt l depth v ++ rest))

/-- Items whose texts are shorter than the fuel are read up to the closing bracket. -/
def ReadsItems (l : Layout) (fuel : Nat) : Prop :=
  ∀ (v : Json) (items : List Json) (depth : Nat) (rest : List Char), v.isExact = true →
    areExact items = true →
    (writeAt l (depth + 1) v).length + (writeItems l (depth + 1) items).length < fuel →
    ReadsAs (anyOversized (v :: items)) (v :: items, rest)
      (readItems (some Number.maxDigits) fuel
        (writeAt l (depth + 1) v ++ (writeItems l (depth + 1) items ++
          (l.breakLine depth ++ ']' :: rest))))

/-- Members whose texts are shorter than the fuel are read up to the closing brace, after members of
other names. -/
def ReadsMembers (l : Layout) (fuel : Nat) : Prop :=
  ∀ (name : String) (v : Json) (members found : List (String × Json)) (depth : Nat)
    (rest : List Char), v.isExact = true → areMembersExact members = true →
    (∀ m ∈ members, m.1 ≠ name) →
    (∀ m ∈ found, ∀ m' ∈ (name, v) :: members, m.1 ≠ m'.1) →
    (writeText l.asciiOnly name ++ ':' :: ' ' :: writeAt l (depth + 1) v ++
      writeMembers l (depth + 1) members).length < fuel →
    ReadsAs (anyMemberOversized ((name, v) :: members)) (found ++ (name, v) :: members, rest)
      (readMembers (some Number.maxDigits) fuel found
        (writeText l.asciiOnly name ++ (':' :: ' ' :: (writeAt l (depth + 1) v ++
          (writeMembers l (depth + 1) members ++ (l.breakLine depth ++ '}' :: rest))))))

theorem skipSpace_writeAt (l : Layout) (depth : Nat) {v : Json} (hv : v.isExact = true)
    (rest : List Char) : skipSpace (writeAt l depth v ++ rest) = writeAt l depth v ++ rest := by
  obtain ⟨c, more, htext, hspace, -⟩ := writeAt_eq_cons l depth v hv
  rw [htext, List.cons_append, skipSpace_cons hspace]

theorem skipSpace_writeText (asciiOnly : Bool) (s : String) (rest : List Char) :
    skipSpace (writeText asciiOnly s ++ rest) = writeText asciiOnly s ++ rest := by
  obtain ⟨body, htext, -⟩ := readTextBody_writeText asciiOnly s rest
  rw [htext, skipSpace_cons (by decide)]

theorem readValue_list {l : Layout} {fuel : Nat} (hreadItems : ReadsItems l fuel) {v : Json}
    {items : List Json} (depth : Nat) (rest : List Char) (hexact : areExact (v :: items) = true)
    (hfuel : (writeAt l depth (.list (v :: items))).length ≤ fuel + 1) :
    ReadsAs (anyOversized (v :: items)) (.list (v :: items), rest)
      (readValue (some Number.maxDigits) (fuel + 1)
        (writeAt l depth (.list (v :: items)) ++ rest)) := by
  simp only [areExact, Bool.and_eq_true] at hexact
  simp only [writeAt, List.length_append, List.length_cons] at hfuel
  have hitems := hreadItems v items depth rest hexact.1 hexact.2 (by omega)
  obtain ⟨c, more, htext, hspace, hclose, -⟩ := writeAt_eq_cons l (depth + 1) v hexact.1
  simp only [writeAt, List.append_assoc, List.cons_append, List.nil_append] at hitems ⊢
  rw [readValue.eq_3, skipSpace_breakLine]
  rw [htext, List.cons_append] at hitems ⊢
  rw [skipSpace_cons hspace]
  split
  · rename_i heq
    exact absurd (List.cons.inj heq).1 hclose
  · exact hitems.bind_pure rfl

theorem readValue_object {l : Layout} {fuel : Nat} (hreadMembers : ReadsMembers l fuel)
    {name : String} {v : Json} {members : List (String × Json)} (depth : Nat) (rest : List Char)
    (hexact : areMembersExact ((name, v) :: members) = true)
    (hfuel : (writeAt l depth (.object ((name, v) :: members))).length ≤ fuel + 1) :
    ReadsAs (anyMemberOversized ((name, v) :: members)) (.object ((name, v) :: members), rest)
      (readValue (some Number.maxDigits) (fuel + 1)
        (writeAt l depth (.object ((name, v) :: members)) ++ rest)) := by
  simp only [areMembersExact, Bool.and_eq_true, Bool.not_eq_true'] at hexact
  simp only [writeAt, List.length_append, List.length_cons] at hfuel
  have hmembers := hreadMembers name v members [] depth rest hexact.1.1 hexact.2
    (by simpa using hexact.1.2) (by simp)
    (by simp only [List.length_append, List.length_cons]; omega)
  simp only [writeAt, List.append_assoc, List.cons_append, List.nil_append] at hmembers ⊢
  rw [readValue.eq_4, skipSpace_breakLine]
  obtain ⟨body, hname, -⟩ := readTextBody_writeText l.asciiOnly name
    (':' :: ' ' :: (writeAt l (depth + 1) v ++ (writeMembers l (depth + 1) members ++
      (l.breakLine depth ++ '}' :: rest))))
  rw [hname] at hmembers ⊢
  rw [skipSpace_cons (by decide)]
  split
  · rename_i heq
    exact absurd (List.cons.inj heq).1 (by decide)
  · exact hmembers.bind_pure rfl

theorem readsValues_succ {l : Layout} {fuel : Nat} (hreadItems : ReadsItems l fuel)
    (hreadMembers : ReadsMembers l fuel) : ReadsValues l (fuel + 1) := by
  intro v depth rest hexact hrest hfuel
  cases v with
  | null => exact .whole _
  | bool b => cases b <;> exact .whole _
  | float x => simp [isExact] at hexact
  | int n =>
      rw [writeAt, hasOversized]
      exact readValue_integer n fuel hrest
  | text s =>
      rw [writeAt, readValue_text fuel l.asciiOnly s rest]
      exact .whole _
  | list items =>
      cases items with
      | nil => exact .whole _
      | cons w items => exact readValue_list hreadItems depth rest hexact hfuel
  | object members =>
      cases members with
      | nil => exact .whole _
      | cons m members => exact readValue_object hreadMembers depth rest hexact hfuel

theorem readsItems_succ {l : Layout} {fuel : Nat} (hreadValue : ReadsValues l fuel)
    (hreadItems : ReadsItems l fuel) : ReadsItems l (fuel + 1) := by
  intro v items depth rest hexact hitems hfuel
  rw [readItems.eq_2, anyOversized]
  cases items with
  | nil =>
      have hvalue := hreadValue v (depth + 1) (l.breakLine depth ++ ']' :: rest) hexact
        (endsNumber_breakLine l depth (by decide) rest) (by simp only [writeItems] at hfuel; omega)
      rw [writeItems, List.nil_append, anyOversized, Bool.or_false]
      refine hvalue.bind_pure ?_
      simp only [skipSpace_breakLine, skipSpace_cons (c := ']') (by decide)]
      rfl
  | cons w more =>
      simp only [areExact, Bool.and_eq_true] at hitems
      simp only [writeItems, List.length_append] at hfuel
      have hseparator := length_separator_pos l (depth + 1)
      have hmore := hreadItems w more depth rest hitems.1 hitems.2 (by omega)
      rw [writeItems, List.append_assoc, List.append_assoc]
      refine (hreadValue v _ _ hexact (endsNumber_separator l _ _) (by omega)).bind ?_
      obtain ⟨next, hnext, hskip⟩ := skipSpace_separator l (depth + 1)
        (writeAt l (depth + 1) w ++ (writeItems l (depth + 1) more ++
          (l.breakLine depth ++ ']' :: rest)))
      simp only [hnext, skipSpace_cons (c := ',') (by decide), hskip,
        skipSpace_writeAt l (depth + 1) hitems.1]
      exact hmore.bind_pure rfl

theorem readsMembers_succ {l : Layout} {fuel : Nat} (hreadValue : ReadsValues l fuel)
    (hreadMembers : ReadsMembers l fuel) : ReadsMembers l (fuel + 1) := by
  intro name v members found depth rest hexact hmembers hname hfound hfuel
  have hput : putMember name v found = found ++ [(name, v)] :=
    putMember_of_new (fun m hm => hfound m hm (name, v) (by simp)) v
  obtain ⟨body, htext, hbody⟩ := readTextBody_writeText l.asciiOnly name
    (':' :: ' ' :: (writeAt l (depth + 1) v ++ (writeMembers l (depth + 1) members ++
      (l.breakLine depth ++ '}' :: rest))))
  have hnoSpace : ∀ tail, skipSpace (' ' :: (writeAt l (depth + 1) v ++ tail)) =
      writeAt l (depth + 1) v ++ tail := by
    intro tail
    rw [skipSpace, List.dropWhile_cons_of_pos (by decide)]
    exact skipSpace_writeAt l (depth + 1) hexact tail
  rw [htext, readMembers.eq_2, hbody, anyMemberOversized]
  simp only [List.length_append, List.length_cons] at hfuel
  simp only [ok_bind, skipSpace_cons (c := ':') (by decide), hnoSpace, String.ofList_toList]
  cases members with
  | nil =>
      have hvalue := hreadValue v (depth + 1) (l.breakLine depth ++ '}' :: rest) hexact
        (endsNumber_breakLine l depth (by decide) rest) (by omega)
      rw [writeMembers, List.nil_append, anyMemberOversized, Bool.or_false]
      refine hvalue.bind_pure ?_
      simp only [skipSpace_breakLine, skipSpace_cons (c := '}') (by decide), hput]
      rfl
  | cons m more =>
      obtain ⟨name', w⟩ := m
      simp only [areMembersExact, Bool.and_eq_true, Bool.not_eq_true', List.any_eq_false,
        beq_iff_eq] at hmembers
      simp only [writeMembers, List.length_append, List.length_cons] at hfuel
      have hfound' : ∀ m ∈ found ++ [(name, v)], ∀ m' ∈ (name', w) :: more, m.1 ≠ m'.1 := by
        intro m hm m' hm'
        rcases List.mem_append.mp hm with hm | hm
        · exact hfound m hm m' (List.mem_cons_of_mem _ hm')
        · obtain rfl : m = (name, v) := by simpa using hm
          exact (hname m' hm').symm
      have hmore := hreadMembers name' w more (found ++ [(name, v)]) depth rest hmembers.1.1
        hmembers.2 hmembers.1.2 hfound'
        (by simp only [List.length_append, List.length_cons]; omega)
      rw [writeMembers]
      simp only [List.append_assoc, List.cons_append] at hmore ⊢
      refine (hreadValue v _ _ hexact (endsNumber_separator l _ _) (by omega)).bind ?_
      obtain ⟨next, hnext, hskip⟩ := skipSpace_separator l (depth + 1)
        (writeText l.asciiOnly name' ++ ':' :: ' ' :: (writeAt l (depth + 1) w ++
          (writeMembers l (depth + 1) more ++ (l.breakLine depth ++ '}' :: rest))))
      simp only [hnext, skipSpace_cons (c := ',') (by decide), hskip, skipSpace_writeText, hput]
      exact hmore

/-- Every step of reading takes one unit of fuel and at least one character. -/
theorem reads_all (l : Layout) (fuel : Nat) :
    ReadsValues l fuel ∧ ReadsItems l fuel ∧ ReadsMembers l fuel := by
  induction fuel with
  | zero =>
      refine ⟨?_, ?_, ?_⟩
      · intro v depth rest hexact _ hfuel
        have := length_writeAt_pos l depth v hexact
        omega
      · intro v items depth rest _ _ hfuel
        omega
      · intro name v members found depth rest _ _ _ _ hfuel
        omega
  | succ fuel ih =>
      obtain ⟨hvalues, hitems, hmembers⟩ := ih
      exact ⟨readsValues_succ hitems hmembers, readsItems_succ hvalues hitems,
        readsMembers_succ hvalues hmembers⟩

theorem endsNumber_of_isSpace {cs : List Char} (hcs : ∀ c ∈ cs, isSpace c = true) :
    EndsNumber cs := by
  intro c hc
  have hspace := hcs c (List.mem_of_mem_head? hc)
  simp only [isSpace, Bool.or_eq_true, decide_eq_true_eq] at hspace
  obtain ((rfl | rfl) | rfl) | rfl := hspace <;> decide

theorem readWhole_write (l : Layout) {v : Json} {ending : List Char}
    (hending : ∀ c ∈ ending, isSpace c = true) (hexact : v.isExact = true) :
    ReadsAs v.hasOversized v (readWhole (some Number.maxDigits) (writeAt l 0 v ++ ending)) := by
  obtain ⟨c, more, htext, hspace, -, -, hmark⟩ := writeAt_eq_cons l 0 v hexact
  have hvalue := (reads_all l (2 * (writeAt l 0 v ++ ending).length + 2)).1 v 0 ending hexact
    (endsNumber_of_isSpace hending) (by simp only [List.length_append]; omega)
  have hstart : skipSpace (writeAt l 0 v ++ ending) = writeAt l 0 v ++ ending := by
    rw [htext, List.cons_append, skipSpace_cons hspace]
  have hhead : (writeAt l 0 v ++ ending).head? ≠ some (Char.ofNat 0xFEFF) := by
    simpa [htext] using hmark
  have hend : skipSpace ending = [] := by
    rw [skipSpace, List.dropWhile_eq_nil_iff]
    exact hending
  rw [readWhole, if_neg hhead, hstart]
  refine hvalue.bind_pure ?_
  simp only [hend]
  rfl

section

variable {l : Layout} {v : Json} {ending : String}
  (hending : ∀ c ∈ ending.toList, isSpace c = true) (hexact : v.isExact = true)

include hending hexact

/-- A written value is read back, whatever space there is after it. -/
theorem read_write (hsize : v.hasOversized = false) : read (v.write l ++ ending) = .ok v := by
  have hwhole := readWhole_write l hending hexact
  rw [hsize] at hwhole
  rw [read, readWithin, String.toList_append, write, String.toList_ofList]
  generalize readWhole _ _ = result at hwhole ⊢
  cases hwhole
  rfl

/-- A written value is refused if an integer in it has too many digits. -/
theorem read_write_of_hasOversized (hsize : v.hasOversized = true) :
    ∃ digits, read (v.write l ++ ending) = .error (.oversized digits) := by
  have hwhole := readWhole_write l hending hexact
  rw [hsize] at hwhole
  rw [read, readWithin, String.toList_append, write, String.toList_ofList]
  generalize readWhole _ _ = result at hwhole ⊢
  cases hwhole with
  | refused _ digits => exact ⟨digits, rfl⟩

end

/-! ## Line ends -/

theorem not_return_of_isDigit {c : Char} (hc : c.isDigit = true) : c ≠ '\r' := by
  rintro rfl
  simp at hc

theorem unitEscape_no_return {n : Nat} (hn : n < 0x10000) : '\r' ∉ unitEscape n := by
  have hdigit : ∀ m < 16, '\r' ≠ m.digitChar := by decide
  rw [unitEscape, hexPadded_four hn]
  simp only [List.mem_cons, List.not_mem_nil, or_false, not_or]
  exact ⟨by decide, by decide, hdigit _ (by omega), hdigit _ (by omega), hdigit _ (by omega),
    hdigit _ (by omega)⟩

theorem escapedChar_no_return (asciiOnly : Bool) (c : Char) : '\r' ∉ escapedChar asciiOnly c := by
  unfold escapedChar
  split
  · rename_i h
    rcases h with rfl | rfl <;> decide
  split
  · decide
  split
  · decide
  rename_i hreturn
  split
  · decide
  split
  · decide
  split
  · decide
  split
  · exact unitEscape_no_return (by omega)
  split
  · split
    · next hunit => exact unitEscape_no_return hunit
    · have hvalid := toNat_cases c
      rw [List.mem_append, not_or]
      exact ⟨unitEscape_no_return (by omega), unitEscape_no_return (by omega)⟩
  · simpa using Ne.symm hreturn

theorem writeText_no_return (asciiOnly : Bool) (s : String) : '\r' ∉ writeText asciiOnly s := by
  simp only [writeText, List.cons_append, List.mem_cons, List.mem_append, List.mem_flatMap,
    not_or]
  refine ⟨by decide, ?_, by decide⟩
  rintro ⟨c, -, hc⟩
  exact escapedChar_no_return asciiOnly c hc

theorem integerText_no_return (n : Int) : '\r' ∉ Number.integerText n := by
  have hdigits : '\r' ∉ Nat.toDigits 10 n.natAbs :=
    fun hmem => not_return_of_isDigit (Number.isDigit_of_mem_toDigits hmem) rfl
  unfold Number.integerText
  split
  · simp [hdigits]
  · exact hdigits

theorem breakLine_no_return (l : Layout) (depth : Nat) : '\r' ∉ l.breakLine depth := by
  unfold Layout.breakLine
  split <;> simp [List.mem_replicate]

theorem separator_no_return (l : Layout) (depth : Nat) : '\r' ∉ l.separator depth := by
  unfold Layout.separator
  split
  · simp [breakLine_no_return]
  · decide

mutual

theorem writeAt_no_return (l : Layout) (depth : Nat) :
    ∀ v : Json, v.isExact = true → '\r' ∉ writeAt l depth v
  | .null, _ => by simp [writeAt]
  | .bool true, _ => by simp [writeAt]
  | .bool false, _ => by simp [writeAt]
  | .int n, _ => by simpa [writeAt] using integerText_no_return n
  | .float x, hv => by simp [isExact] at hv
  | .text s, _ => by simpa [writeAt] using writeText_no_return l.asciiOnly s
  | .list [], _ => by simp [writeAt]
  | .list (v :: rest), hv => by
      simp only [isExact, areExact, Bool.and_eq_true] at hv
      simp [writeAt, breakLine_no_return, writeAt_no_return l (depth + 1) v hv.1,
        writeItems_no_return l (depth + 1) rest hv.2]
  | .object [], _ => by simp [writeAt]
  | .object ((name, v) :: rest), hv => by
      simp only [isExact, areMembersExact, Bool.and_eq_true] at hv
      simp [writeAt, breakLine_no_return, writeText_no_return,
        writeAt_no_return l (depth + 1) v hv.1.1,
        writeMembers_no_return l (depth + 1) rest hv.2]

theorem writeItems_no_return (l : Layout) (depth : Nat) :
    ∀ items : List Json, areExact items = true → '\r' ∉ writeItems l depth items
  | [], _ => by simp [writeItems]
  | v :: rest, hv => by
      simp only [areExact, Bool.and_eq_true] at hv
      simp [writeItems, separator_no_return, writeAt_no_return l depth v hv.1,
        writeItems_no_return l depth rest hv.2]

theorem writeMembers_no_return (l : Layout) (depth : Nat) :
    ∀ members : List (String × Json), areMembersExact members = true →
      '\r' ∉ writeMembers l depth members
  | [], _ => by simp [writeMembers]
  | (name, v) :: rest, hv => by
      simp only [areMembersExact, Bool.and_eq_true] at hv
      simp [writeMembers, separator_no_return, writeText_no_return,
        writeAt_no_return l depth v hv.1.1, writeMembers_no_return l depth rest hv.2]

end

end LinkShelf.Json
