import LinkShelf.Proofs.Text.Pieces
import LinkShelf.Storage.Path

/-!
Paths that are written and read again. Main statements: a path is read from its text if its names
could have been read from one (`ofText_text`), as those of every path that a text writes
(`isNormal_ofText`).
-/

namespace LinkShelf.Path

open Text

/-- What a name in a path is when the path comes from a text. -/
structure IsName (name : String) : Prop where
  ne_empty : name ≠ ""
  ne_stop : name ≠ "."
  no_slash : '/' ∉ name.toList

/-- Whether all names in a path could have been read from a text. -/
def IsNormal (p : Path) : Prop := ∀ name ∈ p.parts, IsName name

variable {name : String} {parts : List String} {cs : List Char}

theorem isNormal_ofText (s : String) : (ofText s).IsNormal := by
  intro name hname
  obtain ⟨piece, hpiece, rfl⟩ := List.mem_map.mp hname
  obtain ⟨hpiece, hcounts⟩ := List.mem_filter.mp hpiece
  simp only [Bool.and_eq_true, Bool.not_eq_true', List.isEmpty_eq_false_iff, bne_iff_ne]
    at hcounts
  refine ⟨?_, ?_, ?_⟩
  · intro hempty
    exact hcounts.1 (by simpa using congrArg String.toList hempty)
  · intro hstop
    exact hcounts.2 (by simpa using congrArg String.toList hstop)
  · intro hslash
    rw [String.toList_ofList] at hslash
    exact absurd (not_mem_pieces hpiece '/' hslash) (by decide)

theorem partsOf_slash (cs : List Char) : partsOf ('/' :: cs) = partsOf cs := rfl

theorem IsName.counts (hname : IsName name) :
    (!name.toList.isEmpty && name.toList != ['.']) = true := by
  simp only [Bool.and_eq_true, Bool.not_eq_true', List.isEmpty_eq_false_iff, bne_iff_ne]
  constructor
  · intro hempty
    exact hname.ne_empty (String.toList_inj.mp hempty)
  · intro hstop
    exact hname.ne_stop (String.toList_inj.mp hstop)

theorem partsOf_name (hname : IsName name) : partsOf name.toList = [name] := by
  simp only [partsOf, pieces_of_forall (beq_of_not_mem hname.no_slash), List.filter_cons,
    hname.counts, if_true, List.filter_nil, List.map_singleton, String.ofList_toList]

theorem partsOf_name_append (hname : IsName name) (cs : List Char) :
    partsOf (name.toList ++ '/' :: cs) = name :: partsOf cs := by
  have hpieces : pieces (· == '/') (name.toList ++ '/' :: cs) =
      name.toList :: pieces (· == '/') cs :=
    pieces_append (by decide) (beq_of_not_mem hname.no_slash)
  simp only [partsOf, hpieces, List.filter_cons, hname.counts, if_true, List.map_cons,
    String.ofList_toList]

theorem partsOf_intercalate (hparts : ∀ name ∈ parts, IsName name) :
    partsOf (String.intercalate "/" parts).toList = parts := by
  induction parts with
  | nil => rfl
  | cons name parts ih =>
      have hname := hparts name (by simp)
      have hmore := ih fun other hother => hparts other (by simp [hother])
      cases parts with
      | nil => exact partsOf_name hname
      | cons next parts =>
          rw [String.intercalate_cons_cons, String.toList_append, String.toList_append,
            List.append_assoc]
          exact (partsOf_name_append hname _).trans (congrArg (name :: ·) hmore)

theorem startOf_append (start : Start) (hcs : cs.head? ≠ some '/') :
    startOf (start.text.toList ++ cs) = start := by
  cases cs with
  | nil => cases start <;> rfl
  | cons c cs =>
      have hc : c ≠ '/' := fun h => hcs (by rw [h, List.head?_cons])
      cases start <;> simp [Start.text, startOf, hc]

theorem head?_intercalate (hparts : ∀ name ∈ parts, IsName name) :
    (String.intercalate "/" parts).toList.head? ≠ some '/' := by
  cases parts with
  | nil => simp
  | cons name parts =>
      have hname := hparts name (by simp)
      obtain ⟨c, more, hcons⟩ := List.exists_cons_of_ne_nil (l := name.toList)
        fun hempty => hname.ne_empty (String.toList_inj.mp hempty)
      have hc : c ≠ '/' := fun h => hname.no_slash (by rw [hcons, h]; exact List.mem_cons_self)
      have hhead : (String.intercalate "/" (name :: parts)).toList.head? = some c := by
        cases parts with
        | nil => simp [hcons]
        | cons next parts => simp [String.intercalate_cons_cons, hcons]
      rw [hhead]
      simpa using hc

theorem ofText_text {p : Path} (hp : p.IsNormal) : ofText p.text = p := by
  obtain ⟨start, parts⟩ := p
  by_cases hhere : start = .here ∧ parts = []
  · obtain ⟨rfl, rfl⟩ := hhere
    rfl
  · rw [text, if_neg hhere, ofText, String.toList_append, startOf_append _ (head?_intercalate hp)]
    have hparts : partsOf (start.text.toList ++ (String.intercalate "/" parts).toList) =
        partsOf (String.intercalate "/" parts).toList := by
      cases start <;> rfl
    rw [hparts, partsOf_intercalate hp]

end LinkShelf.Path
