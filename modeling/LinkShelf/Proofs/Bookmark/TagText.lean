import LinkShelf.Proofs.Bookmark.Tags
import LinkShelf.Proofs.Text.Blank
import LinkShelf.Proofs.Text.Pieces

/-!
Tags written in texts. Main statement: texts with separators between hold the tags of both, every
tag of a text is in normal form and holds no separator, and the tags of a text in any order are a
text with the same tags (`tags_of_text`).
-/

namespace LinkShelf

open Text

namespace TagSet

/-- The tags of two sets. -/
def union (a b : TagSet) : TagSet := ofList (a.names ++ b.names)

theorem mem_union {a b : TagSet} {tag : String} :
    tag ∈ (a.union b).names ↔ tag ∈ a.names ∨ tag ∈ b.names := by
  rw [union, mem_ofList, List.mem_append]

theorem nodup_names (tags : TagSet) : tags.names.Nodup := tags.sorted.imp String.ne_of_lt

/-- Sets with the same names are the same. -/
theorem eq_of_mem_iff {a b : TagSet} (hmem : ∀ tag, tag ∈ a.names ↔ tag ∈ b.names) : a = b := by
  have hperm : a.names.Perm b.names :=
    (List.perm_ext_iff_of_nodup a.nodup_names b.nodup_names).mpr fun tag => hmem tag
  have hnames : a.names = b.names :=
    hperm.eq_of_pairwise (fun _ _ _ _ hlt hgt => absurd hgt (String.lt_asymm hlt)) a.sorted
      b.sorted
  cases a
  cases b
  cases hnames
  rfl

theorem mem_ofText {text tag : String} : tag ∈ (ofText text).names ↔ tag ∈ Tag.namesIn text :=
  mem_ofList

end TagSet

namespace Tag

variable {c d : Char} {cs before after separator : List Char} {tag text : String}

theorem isSeparator_of_mem_foldChar (hd : d ∈ foldChar c) (hc : isSeparator c = false) :
    isSeparator d = false := by
  rw [isSeparator, Bool.or_eq_false_iff, decide_eq_false_iff_not] at hc ⊢
  refine ⟨?_, (isBlank_of_mem_foldChar hd).trans hc.2⟩
  rintro rfl
  obtain ⟨hself, -⟩ | ⟨-, hletters⟩ := foldChar_cases c
  · rw [hself, List.mem_singleton] at hd
    exact hc.1 hd.symm
  · have hcomma := (hletters ',' hd).1
    revert hcomma
    decide

/-! ## Pieces -/

/-- The pieces of a text between separators, without the empty ones. -/
def piecesIn (cs : List Char) : List (List Char) :=
  (pieces isSeparator cs).filter fun piece => !piece.isEmpty

theorem piecesIn_append_cons (hc : isSeparator c = true) (before after : List Char) :
    piecesIn (before ++ c :: after) = piecesIn before ++ piecesIn after := by
  rw [piecesIn, pieces_append_cons hc, List.filter_append]
  rfl

theorem piecesIn_separator_append (hseparator : ∀ c ∈ separator, isSeparator c = true)
    (after : List Char) : piecesIn (separator ++ after) = piecesIn after := by
  induction separator with
  | nil => rfl
  | cons c separator ih =>
      obtain ⟨hc, hmore⟩ := List.forall_mem_cons.mp hseparator
      have hnothing := piecesIn_append_cons hc [] (separator ++ after)
      rw [List.cons_append]
      exact hnothing.trans (ih hmore)

theorem piecesIn_append (hseparator : ∀ c ∈ separator, isSeparator c = true)
    (hne : separator ≠ []) (before after : List Char) :
    piecesIn (before ++ separator ++ after) = piecesIn before ++ piecesIn after := by
  obtain ⟨c, more, rfl⟩ := List.exists_cons_of_ne_nil hne
  obtain ⟨hc, hmore⟩ := List.forall_mem_cons.mp hseparator
  rw [List.append_assoc, List.cons_append, piecesIn_append_cons hc,
    piecesIn_separator_append hmore]

theorem piecesIn_of_forall (hcs : ∀ c ∈ cs, isSeparator c = false) (hne : cs ≠ []) :
    piecesIn cs = [cs] := by
  rw [piecesIn, pieces_of_forall hcs]
  simp [hne]

theorem mem_piecesIn {piece : List Char} (hpiece : piece ∈ piecesIn cs) :
    piece ≠ [] ∧ (∀ c ∈ piece, isSeparator c = false) ∧ strip piece = piece := by
  obtain ⟨hpiece, hne⟩ := List.mem_filter.mp hpiece
  have hplain := not_mem_pieces hpiece
  refine ⟨by simpa using hne, hplain, strip_of_forall ?_⟩
  intro c hc
  have hseparator := hplain c hc
  rw [isSeparator, Bool.or_eq_false_iff] at hseparator
  exact hseparator.2

/-! ## Names -/

theorem namesIn_eq (text : String) :
    namesIn text = (piecesIn text.toList).map fun piece => String.ofList (foldCase piece) := rfl

/-- What stands between tags in a text: commas and white space, at least one of them. -/
structure IsSeparating (separator : String) : Prop where
  ne_empty : separator ≠ ""
  only : ∀ c ∈ separator.toList, isSeparator c = true

/-- The names in a text, each piece that is not blank brought into normal form; none when a piece
has no normal form. -/
def readNames? (text : String) : Option (List String) :=
  ((pieces isSeparator text.toList).filter fun piece => !(strip piece).isEmpty).mapM fun piece =>
    normalize? (String.ofList piece)

theorem readNames?_eq (text : String) : readNames? text = some (namesIn text) := by
  have hpieces : ((pieces isSeparator text.toList).filter fun piece => !(strip piece).isEmpty) =
      piecesIn text.toList := by
    apply List.filter_congr
    intro piece hpiece
    by_cases hne : piece = []
    · rw [hne]
      rfl
    · have hmem : piece ∈ piecesIn text.toList := List.mem_filter.mpr ⟨hpiece, by simpa using hne⟩
      rw [(mem_piecesIn hmem).2.2]
  have hnormal : ∀ piece ∈ piecesIn text.toList,
      normalize? (String.ofList piece) = some (String.ofList (foldCase piece)) := by
    intro piece hpiece
    obtain ⟨hne, -, hstrip⟩ := mem_piecesIn hpiece
    apply normalize?_eq_some_iff.mpr
    rw [String.toList_ofList, String.toList_ofList, hstrip]
    exact ⟨rfl, by simpa [foldCase_eq_nil_iff] using hne⟩
  rw [readNames?, hpieces, namesIn_eq]
  revert hnormal
  induction piecesIn text.toList with
  | nil => intro _; rfl
  | cons piece rest ih =>
      intro hnormal
      obtain ⟨hpiece, hrest⟩ := List.forall_mem_cons.mp hnormal
      rw [List.mapM_cons, hpiece, ih hrest]
      rfl

/-- What a tag is that a text can hold: a name in normal form without separators. -/
structure IsWritten (tag : String) : Prop where
  ne_empty : tag ≠ ""
  plain : ∀ c ∈ tag.toList, isSeparator c = false
  normal : normalize? tag = some tag

theorem isWritten_of_mem_namesIn (htag : tag ∈ namesIn text) : IsWritten tag := by
  have hnormal := normalize?_of_mem_namesIn htag
  refine ⟨(normalize?_eq_some_iff.mp hnormal).2, ?_, hnormal⟩
  obtain ⟨piece, hpiece, rfl⟩ := List.mem_map.mp htag
  rw [String.toList_ofList]
  intro d hd
  obtain ⟨c, hc, hd⟩ := List.mem_flatMap.mp hd
  exact isSeparator_of_mem_foldChar hd ((mem_piecesIn hpiece).2.1 c hc)

theorem IsWritten.namesIn_eq (htag : IsWritten tag) : namesIn tag = [tag] := by
  have hstrip : strip tag.toList = tag.toList := by
    apply strip_of_forall
    intro c hc
    have hseparator := htag.plain c hc
    rw [isSeparator, Bool.or_eq_false_iff] at hseparator
    exact hseparator.2
  have hfold : foldCase tag.toList = tag.toList := by
    rw [← (normalize?_eq_some_iff.mp htag.normal).1.trans (congrArg foldCase hstrip)]
  rw [Tag.namesIn_eq, piecesIn_of_forall htag.plain (by simpa using htag.ne_empty)]
  simp [hfold]

theorem namesIn_append {separator : String} (hseparator : IsSeparating separator) (a b : String) :
    namesIn (a ++ separator ++ b) = namesIn a ++ namesIn b := by
  rw [namesIn_eq, String.toList_append, String.toList_append,
    piecesIn_append hseparator.only (by simpa using hseparator.ne_empty), List.map_append]
  rfl

theorem namesIn_intercalate {separator : String} (hseparator : IsSeparating separator)
    {tags : List String} (htags : ∀ tag ∈ tags, IsWritten tag) :
    namesIn (separator.intercalate tags) = tags := by
  induction tags with
  | nil => rfl
  | cons tag rest ih =>
      obtain ⟨htag, hrest⟩ := List.forall_mem_cons.mp htags
      cases rest with
      | nil =>
          rw [String.intercalate_singleton]
          exact htag.namesIn_eq
      | cons next rest =>
          rw [String.intercalate_cons_cons, namesIn_append hseparator, htag.namesIn_eq,
            ih hrest]
          rfl

end Tag

namespace TagSet

/-- The tags of a text are those of its parts. They are always read, each is in normal form and
without separators, and put between separators, in any order and with repetitions, they are a text
with the same tags. -/
theorem tags_of_text :
    (∀ a b separator, Tag.IsSeparating separator →
      ofText (a ++ separator ++ b) = (ofText a).union (ofText b)) ∧
    ∀ text, Tags.ofJson (.text text) = .ok (ofText text) ∧
      (Tag.readNames? text).map ofList = some (ofText text) ∧
      (∀ tag ∈ (ofText text).names, tag ≠ "" ∧ (∀ c ∈ tag.toList, Tag.isSeparator c = false) ∧
        Tag.normalize? tag = some tag) ∧
      ∀ (tags : List String) (separator : String), Tag.IsSeparating separator →
        (∀ tag, tag ∈ tags ↔ tag ∈ (ofText text).names) →
        ofText (separator.intercalate tags) = ofText text := by
  have hwritten : ∀ text, ∀ tag ∈ (ofText text).names, Tag.IsWritten tag :=
    fun text tag htag => Tag.isWritten_of_mem_namesIn (mem_ofText.mp htag)
  constructor
  · intro a b separator hseparator
    apply eq_of_mem_iff
    intro tag
    rw [mem_union, mem_ofText, mem_ofText, mem_ofText, Tag.namesIn_append hseparator,
      List.mem_append]
  · intro text
    refine ⟨?_, ?_, ?_, ?_⟩
    · rw [Tags.ofJson]
      split
      · next hblank =>
          have hempty : text = "" := by simpa [Json.isBlank] using hblank
          rw [hempty]
          rfl
      · rfl
    · rw [Tag.readNames?_eq]
      rfl
    · intro tag htag
      have h := hwritten text tag htag
      exact ⟨h.ne_empty, h.plain, h.normal⟩
    · intro tags separator hseparator htags
      have hall : ∀ tag ∈ tags, Tag.IsWritten tag :=
        fun tag htag => hwritten text tag ((htags tag).mp htag)
      apply eq_of_mem_iff
      intro tag
      rw [mem_ofText, Tag.namesIn_intercalate hseparator hall, htags]

def streetText : String := ",Große\u2003Straße ,"

/-- A separator may stand anywhere, and its characters may be mixed. -/
theorem tags_of_text_street :
    ofText (streetText ++ "\t," ++ "GROSSE") = ⟨["grosse", "strasse"], by decide +kernel⟩ ∧
      ofText (String.intercalate ", " ["strasse", "grosse", "strasse"]) = ofText streetText := by
  have htab : Tag.IsSeparating "\t," := ⟨by decide, by decide⟩
  have hcomma : Tag.IsSeparating ", " := ⟨by decide, by decide⟩
  obtain ⟨happend, hread⟩ := tags_of_text
  obtain ⟨-, -, -, hagain⟩ := hread streetText
  have hstreet : (ofText streetText).names = ["grosse", "strasse"] := by decide +kernel
  constructor
  · rw [happend streetText "GROSSE" "\t," htab]
    decide +kernel
  · apply hagain _ ", " hcomma
    intro tag
    rw [hstreet]
    grind

end TagSet

end LinkShelf
