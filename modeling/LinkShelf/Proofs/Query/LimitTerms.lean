import LinkShelf.Proofs.Number.IntegerText
import LinkShelf.Proofs.Query.WrittenBack
import LinkShelf.Proofs.Text.Digits

/-!
Limits written after a query. Main statements: a text that is read as some words is read as these
and one more where that word is written after it (`words_append_word`); a limit term written after a
query that compiles gives the query that cuts off what the first one gives, unless the limit is
below zero or has too many digits (`ofText_limited`, `run_limited`).
-/

namespace LinkShelf

namespace Text

variable {state : WordState} {word cs : List Char} {found : List (List Char)}

/-- Words end at a blank: what stands after it is read as on its own. -/
theorem wordsFrom_append_blank (hfound : wordsFrom state word cs = .ok found)
    (more : List Char) :
    wordsFrom state word (cs ++ ' ' :: more) = (words more).map (found ++ ·) := by
  have hblank : isWordBlank ' ' = true := rfl
  fun_induction wordsFrom state word cs generalizing found with
  | case1 word =>
      obtain rfl := Except.ok.inj hfound
      rw [List.nil_append, wordsFrom, if_pos hblank, ← words]
      cases words more <;> rfl
  | case2 word =>
      obtain rfl := Except.ok.inj hfound
      rw [List.nil_append, wordsFrom, if_pos hblank]
      rfl
  | case12 word c cs hc ih =>
      -- the word ends here, and is put in front of those that are read after it
      obtain ⟨rest, hrest, rfl⟩ : ∃ rest, wordsFrom .between [] cs = .ok rest ∧
          word.reverse :: rest = found := by
        cases hrest : wordsFrom .between [] cs with
        | ok rest => exact ⟨rest, rfl, by simpa [hrest, Except.map] using hfound⟩
        | error fault => simp [hrest, Except.map] at hfound
      rw [List.cons_append, wordsFrom, if_pos hc, ih hrest]
      cases words more <;> rfl
  | case3 | case4 | case5 | case6 => cases hfound
  | _ =>
      rw [List.cons_append, wordsFrom]
      simp_all

/-- Whether a character stands for itself in a word. -/
def isWordLetter (c : Char) : Bool := !isWordBlank c && c != '\'' && c != '"' && c != '\\'

theorem wordsFrom_letters (hcs : ∀ c ∈ cs, isWordLetter c = true) :
    wordsFrom .word word cs = .ok [word.reverse ++ cs] := by
  induction cs generalizing word with
  | nil => simp [wordsFrom]
  | cons c cs ih =>
      obtain ⟨hc, hmore⟩ := List.forall_mem_cons.mp hcs
      simp only [isWordLetter, Bool.and_eq_true, Bool.not_eq_true', bne_iff_ne] at hc
      obtain ⟨⟨⟨hblank, hsingle⟩, hdouble⟩, hescape⟩ := hc
      rw [wordsFrom, if_neg (by simp [hblank]), if_neg hsingle, if_neg hdouble, if_neg hescape,
        ih hmore, List.reverse_cons, List.append_assoc]
      rfl

theorem words_letters (hcs : ∀ c ∈ cs, isWordLetter c = true) (hne : cs ≠ []) :
    words cs = .ok [cs] := by
  obtain ⟨c, rest, rfl⟩ := List.exists_cons_of_ne_nil hne
  obtain ⟨hc, hmore⟩ := List.forall_mem_cons.mp hcs
  simp only [isWordLetter, Bool.and_eq_true, Bool.not_eq_true', bne_iff_ne] at hc
  obtain ⟨⟨⟨hblank, hsingle⟩, hdouble⟩, hescape⟩ := hc
  rw [words, wordsFrom, if_neg (by simp [hblank]), if_neg hsingle, if_neg hdouble, if_neg hescape,
    wordsFrom_letters hmore]
  rfl

theorem words_append_word (hfound : words cs = .ok found) {more : List Char}
    (hmore : ∀ c ∈ more, isWordLetter c = true) (hne : more ≠ []) :
    words (cs ++ ' ' :: more) = .ok (found ++ [more]) := by
  rw [words, wordsFrom_append_blank hfound, words_letters hmore hne]
  rfl

end Text

open Text

/-- The term for a limit. -/
def limitTerm (n : Int) : Term := ⟨"limit", String.ofList (Number.integerText n)⟩

theorem isWordLetter_of_isDigit {c : Char} (hc : c.isDigit = true) : isWordLetter c = true := by
  have hne : ∀ d : Char, d.isDigit = false → c ≠ d := by
    rintro d hd rfl
    rw [hc] at hd
    cases hd
  simp [isWordLetter, isWordBlank, hne]

theorem of_mem_integerText {p : Char → Prop} (hminus : p '-')
    (hdigit : ∀ c, c.isDigit = true → p c) {n : Int} {c : Char} (hc : c ∈ Number.integerText n) :
    p c := by
  have hdigits : ∀ d ∈ Nat.toDigits 10 n.natAbs, p d := fun d hd =>
    hdigit d (Number.isDigit_of_mem_toDigits hd)
  rw [Number.integerText] at hc
  split at hc
  · rcases List.mem_cons.mp hc with rfl | hc
    · exact hminus
    · exact hdigits c hc
  · exact hdigits c hc

theorem strip_integerText (n : Int) : strip (Number.integerText n) = Number.integerText n :=
  strip_of_forall fun _ => of_mem_integerText (p := fun c => isBlank c = false) (by decide)
    fun _ hc => isBlank_of_isDigit (Number.isDigit_of_isDecimal hc)

namespace Term

theorem ofWord_limitTerm (n : Int) : ofWord (limitTerm n).text = limitTerm n := by
  have hcolon : ':' ∉ "limit".toList := by decide
  refine (Query.ofWord_action hcolon rfl _).trans ?_
  rw [limitTerm, String.toList_ofList, strip_integerText]

theorem ofText_append_limit {text : String} {terms : List Term} (htext : ofText text = .ok terms)
    (n : Int) : ofText (text ++ " " ++ (limitTerm n).text) = .ok (terms ++ [limitTerm n]) := by
  have hletters : ∀ c ∈ (limitTerm n).text.toList, isWordLetter c = true := by
    have hname : ∀ c ∈ "limit:".toList, isWordLetter c = true := by decide
    intro c hc
    rw [Term.text, String.toList_append] at hc
    rcases List.mem_append.mp hc with hc | hc
    · exact hname c hc
    · rw [limitTerm, String.toList_ofList] at hc
      exact of_mem_integerText (p := fun c => isWordLetter c = true) rfl
        (fun _ => isWordLetter_of_isDigit) hc
  have hne : (limitTerm n).text.toList ≠ [] := by simp [limitTerm, Term.text]
  rw [ofText] at htext ⊢
  cases hwords : words text.toList with
  | error fault =>
      rw [hwords] at htext
      cases htext
  | ok found =>
      rw [hwords] at htext
      obtain rfl := Except.ok.inj htext
      have hmore : words (text ++ " " ++ (limitTerm n).text).toList =
          .ok (found ++ [(limitTerm n).text.toList]) := by
        rw [String.toList_append, String.toList_append, List.append_assoc]
        exact words_append_word hwords hletters hne
      rw [hmore]
      simp only [List.map_append, List.map_cons, List.map_nil, String.ofList_toList,
        ofWord_limitTerm]

end Term

namespace Query

variable {present : Present} {text : String} {q : Query} {zone : Zone}

/-- A limit is compiled unless it is below zero or has too many digits. -/
theorem compile_limitTerm (present : Present) (n : Int) :
    Registry.builtin.compile present (limitTerm n) =
      if Number.isOversized n then
        Action.refuse (limitTerm n) (.notANumber "limit" (limitTerm n).argument)
      else if n < 0 then
        Action.refuse (limitTerm n) (.negativeLimit "limit" (limitTerm n).argument)
      else .ok (.limit n.toNat) := by
  have hread : Action.integerOf (limitTerm n) (limitTerm n).argument =
      if Number.isOversized n then
        Action.refuse (limitTerm n) (.notANumber "limit" (limitTerm n).argument)
      else .ok n := by
    rw [Action.integerOf, limitTerm, String.toList_ofList, strip_integerText,
      Number.readInteger_integerText]
    cases Number.isOversized n <;> rfl
  show Action.limit present (limitTerm n) = _
  rw [Action.limit, hread]
  cases Number.isOversized n <;> rfl

/-- A query with a limit written after it. -/
def limitedText (text : String) (n : Int) : String := text ++ " " ++ (limitTerm n).text

theorem ofText_limited (hq : ofText .builtin present text = .ok q) (n : Int) :
    ofText .builtin present (limitedText text n) =
      (Registry.builtin.compile present (limitTerm n)).map fun stage =>
        ⟨q.terms ++ [limitTerm n], q.stages ++ [stage]⟩ := by
  rw [ofText] at hq
  cases hterms : Term.ofText text with
  | error fault =>
      rw [hterms] at hq
      cases hq
  | ok terms =>
      rw [hterms] at hq
      obtain ⟨stages, hstages, hq⟩ := bind_eq_ok.mp hq
      obtain rfl := Except.ok.inj hq
      rw [ofText, limitedText, Term.ofText_append_limit hterms]
      simp only [ofTerms, List.mapM_append, hstages, ok_bind, List.mapM_cons, List.mapM_nil]
      cases Registry.builtin.compile present (limitTerm n) <;> rfl

theorem run_limited (q : Query) (terms : List Term) (n : Nat) (bookmarks : List Bookmark) :
    run zone ⟨terms, q.stages ++ [.limit n]⟩ bookmarks =
      (q.run zone bookmarks).map fun found => found.take n := by
  rw [run, List.foldlM_append, ← run]
  cases q.run zone bookmarks <;> rfl

end Query

end LinkShelf
