import LinkShelf.Proofs.Query.Tagged
import LinkShelf.Proofs.Text.Blank
import LinkShelf.Proofs.Text.Folding
import LinkShelf.Text.Words

/-!
Queries written back. Main statement: texts in quotes are read as the terms that the texts write, and
the quoted terms of a query are a query that gives the same bookmarks (`written_back`).
-/

namespace LinkShelf

namespace Text

/-- A text in single quotes. Those in the text itself stand in double quotes. -/
def shellQuoted (cs : List Char) : List Char :=
  '\'' :: replaceChar '\'' ['\'', '"', '\'', '"', '\''] cs ++ ['\'']

theorem wordsFrom_single (word cs rest : List Char) :
    wordsFrom .single word
        (replaceChar '\'' ['\'', '"', '\'', '"', '\''] cs ++ '\'' :: rest) =
      wordsFrom .word (cs.reverse ++ word) rest := by
  induction cs generalizing word with
  | nil => simp [replaceChar, wordsFrom]
  | cons c cs ih =>
      simp only [replaceChar] at ih
      rw [replaceChar, List.flatMap_cons, List.append_assoc, List.reverse_cons, List.append_assoc]
      by_cases hquote : c = '\''
      · subst hquote
        -- The first quote ends the quotation, and the last one starts another of the same word.
        have hagain : ∀ more : List Char,
            wordsFrom .single word ('\'' :: '"' :: '\'' :: '"' :: '\'' :: more) =
              wordsFrom .single ('\'' :: word) more := by
          intro more
          simp [wordsFrom, isWordBlank]
        rw [if_pos rfl]
        exact (hagain _).trans (ih _)
      · rw [if_neg hquote, List.singleton_append, wordsFrom, if_neg hquote]
        exact ih _

theorem wordsFrom_shellQuoted (cs rest : List Char) :
    wordsFrom .between [] (shellQuoted cs ++ rest) = wordsFrom .word cs.reverse rest := by
  have hopen : ∀ more : List Char,
      wordsFrom .between [] ('\'' :: more) = wordsFrom .single [] more := by
    intro more
    simp [wordsFrom, isWordBlank]
  rw [shellQuoted, List.append_assoc, List.cons_append, hopen, List.singleton_append,
    wordsFrom_single, List.append_nil]

theorem words_shellQuoted (texts : List (List Char)) :
    words ([' '].intercalate (texts.map shellQuoted)) = .ok texts := by
  rw [words]
  induction texts with
  | nil => rfl
  | cons first rest ih =>
      cases rest with
      | nil =>
          have hone := wordsFrom_shellQuoted first []
          rw [List.append_nil] at hone
          simp [hone, wordsFrom]
      | cons second rest =>
          rw [List.map_cons, List.map_cons, List.intercalate_cons_cons, List.append_assoc,
            wordsFrom_shellQuoted, List.singleton_append, wordsFrom, ← List.map_cons, ih,
            List.reverse_reverse]
          rfl

end Text

open Text

/-- Texts in single quotes with spaces between. -/
def shellJoined (texts : List String) : String :=
  String.intercalate " " (texts.map fun s => String.ofList (shellQuoted s.toList))

namespace Term

theorem ofText_shellJoined (texts : List String) :
    ofText (shellJoined texts) = .ok (texts.map ofWord) := by
  have hwords : words (shellJoined texts).toList = .ok (texts.map String.toList) := by
    rw [← words_shellQuoted (texts.map String.toList), shellJoined, String.toList_intercalate]
    simp [Function.comp_def]
  rw [ofText, hwords]
  simp [Function.comp_def]

/-- A term is read from its own text, but for white space around the argument of a word without an
action. -/
theorem ofWord_text (word : String) :
    ofWord (ofWord word).text = ofWord word ∨
      ofWord word = ⟨"tagged", word⟩ ∧
        ofWord (ofWord word).text = ⟨"tagged", String.ofList (strip word.toList)⟩ := by
  cases hcut : cutFirst (· == ':') word.toList with
  | none =>
      right
      have hbare : ofWord word = ⟨"tagged", word⟩ := by rw [ofWord, hcut]
      refine ⟨hbare, ?_⟩
      rw [hbare]
      have hread : ofWord ("tagged" ++ ":" ++ word) =
          ⟨"tagged", String.ofList (strip word.toList)⟩ :=
        Query.ofWord_action (by decide) rfl word
      exact hread
  | some parts =>
      obtain ⟨action, argument⟩ := parts
      left
      obtain ⟨-, -, -, hbefore⟩ := cutFirst_eq_some hcut
      have hword : ofWord word =
          ⟨String.ofList (lower (strip action)), String.ofList (strip argument)⟩ := by
        rw [ofWord, hcut]
      have hcolon : ':' ∉ lower (strip action) := by
        intro hmem
        obtain hmem | hlowered := mem_lower hmem
        · have hself := hbefore ':' ((strip_sublist action).subset hmem)
          simp at hself
        · revert hlowered
          decide
      rw [hword, text, Query.ofWord_action (by rwa [String.toList_ofList])]
      · simp only [String.toList_ofList, strip_strip]
      · rw [String.toList_ofList, strip_lower (strip_strip action), lower_lower]

end Term

namespace Query

variable {r : Registry} {present : Present} {t : Term} {stage : Stage}

theorem compile_ofWord_text (htagged : r.find? "tagged" = some Action.tagged) {word : String}
    (hstage : r.compile present (Term.ofWord word) = .ok stage) :
    r.compile present (Term.ofWord (Term.ofWord word).text) = .ok stage := by
  obtain hsame | ⟨hbare, hagain⟩ := Term.ofWord_text word
  · rwa [hsame]
  · rw [hbare, Registry.compile, htagged] at hstage
    rw [hagain, Registry.compile, htagged]
    simp only [Action.tagged, Tag.normalize?_strip] at hstage ⊢
    cases hname : Tag.normalize? word with
    | some name => rwa [hname] at hstage
    | none =>
        rw [hname] at hstage
        cases hstage

theorem ofTerms_congr {terms : List Term} {again : Term → Term} {q : Query}
    (hagain : ∀ t ∈ terms, ∀ stage, r.compile present t = .ok stage →
      r.compile present (again t) = .ok stage)
    (hq : ofTerms r present terms = .ok q) :
    ofTerms r present (terms.map again) = .ok ⟨terms.map again, q.stages⟩ := by
  obtain ⟨hterms, rfl⟩ := ofTerms_eq_ok_iff.mp hq
  have hsame : ∀ t ∈ terms, r.compile present (again t) = r.compile present t := by
    intro t ht
    obtain ⟨stage, hstage⟩ := hterms t ht
    rw [hstage, hagain t ht stage hstage]
  apply ofTerms_eq_ok_iff.mpr
  constructor
  · intro other hother
    obtain ⟨t, ht, rfl⟩ := List.mem_map.mp hother
    rw [hsame t ht]
    exact hterms t ht
  · rw [List.filterMap_map]
    congr 1
    apply List.filterMap_congr
    intro t ht
    simp only [Function.comp_apply, Registry.stage?, hsame t ht]

/-- Texts in quotes are the words of a query, whatever stands in them, so a query can be written
back: its terms in quotes are a query with the same results, also when the argument of a bare word
loses white space at its ends. -/
theorem written_back (htagged : r.find? "tagged" = some Action.tagged) :
    (∀ texts : List String,
      Term.ofText (shellJoined texts) = .ok (texts.map Term.ofWord)) ∧
    ∀ present text q, ofText r present text = .ok q →
      ∃ again, ofText r present (shellJoined (q.terms.map Term.text)) = .ok again ∧
        ∀ zone bookmarks, again.run zone bookmarks = q.run zone bookmarks := by
  refine ⟨Term.ofText_shellJoined, ?_⟩
  intro present text q hq
  rw [ofText] at hq
  split at hq
  · next terms hterms =>
      obtain ⟨words, hwords⟩ : ∃ words : List (List Char),
          terms = words.map fun w => Term.ofWord (String.ofList w) := by
        rw [Term.ofText] at hterms
        split at hterms
        · next words _ => exact ⟨words, (Except.ok.inj hterms).symm⟩
        · cases hterms
      have hagain : ∀ t ∈ terms, ∀ stage, r.compile present t = .ok stage →
          r.compile present (Term.ofWord t.text) = .ok stage := by
        intro t ht stage hstage
        rw [hwords] at ht
        obtain ⟨w, -, rfl⟩ := List.mem_map.mp ht
        exact compile_ofWord_text htagged hstage
      have hown : q.terms = terms := by
        obtain ⟨-, rfl⟩ := ofTerms_eq_ok_iff.mp hq
        rfl
      refine ⟨⟨terms.map fun t => Term.ofWord t.text, q.stages⟩, ?_, fun _ _ => rfl⟩
      rw [ofText, Term.ofText_shellJoined, hown, List.map_map]
      exact ofTerms_congr hagain hq
  · cases hq

def quotedWords : String := "\" it's a tag \" SITE:'Example.com '"

def quotedAgain : String := "'tagged: it'\"'\"'s a tag ' 'site:Example.com'"

/-- The first word loses the spaces at its ends when it is read again, and the query is the same. -/
theorem written_back_quotedWords : ∃ q again,
    ofText .builtin samplePresent quotedWords = .ok q ∧
      q.terms = [⟨"tagged", " it's a tag "⟩, ⟨"site", "Example.com"⟩] ∧
      ofText .builtin samplePresent quotedAgain = .ok again ∧
      again.terms = [⟨"tagged", "it's a tag"⟩, ⟨"site", "Example.com"⟩] ∧
      ∀ zone bookmarks, again.run zone bookmarks = q.run zone bookmarks := by
  have hq : ∃ q, ofText .builtin samplePresent quotedWords = .ok q ∧
      q.terms = [⟨"tagged", " it's a tag "⟩, ⟨"site", "Example.com"⟩] := ⟨_, rfl, rfl⟩
  have hother : ∃ q, ofText .builtin samplePresent quotedAgain = .ok q ∧
      q.terms = [⟨"tagged", "it's a tag"⟩, ⟨"site", "Example.com"⟩] := ⟨_, rfl, rfl⟩
  obtain ⟨q, hq, hterms⟩ := hq
  obtain ⟨other, hother, hotherTerms⟩ := hother
  obtain ⟨again, hagain, hrun⟩ :=
    (written_back (r := .builtin) rfl).2 samplePresent quotedWords q hq
  have hwritten : shellJoined (q.terms.map Term.text) = quotedAgain := by
    rw [hterms]
    rfl
  rw [hwritten] at hagain
  obtain rfl : other = again := Except.ok.inj (hother.symm.trans hagain)
  exact ⟨q, other, hq, hterms, hother, hotherTerms, hrun⟩

end Query

end LinkShelf
