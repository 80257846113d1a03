import LinkShelf.Proofs.Toml.Scalars

/-!
TOML documents of named sections with texts and integers in them. Main statement: a document that is
written without a fault is read back from what was written (`read_write`).
-/

namespace LinkShelf.Toml

open Text

/-- A name and the members that stand under it. -/
abbrev Section := String × Table

/-- The document of some sections. -/
def ofSections (sections : List Section) : Table := sections.map fun s => (s.1, .table s.2)

/-- Whether no two members or sections have the same name. -/
def IsDistinct {α : Type} (named : List (String × α)) : Prop := (named.map Prod.fst).Nodup

theorem IsDistinct.ne_of_mem {α : Type} {front back : List (String × α)} {x : String × α}
    (h : IsDistinct (front ++ x :: back)) : ∀ y ∈ front, y.1 ≠ x.1 := by
  intro y hy
  rw [IsDistinct, List.map_append, List.map_cons] at h
  exact (List.nodup_append.mp h).2.2 y.1 (List.mem_map_of_mem hy) x.1 (by simp)

/-- Whether sections hold texts and integers only, under names of their own. -/
structure IsFlat (sections : List Section) : Prop where
  distinct : IsDistinct sections
  distinctMembers : ∀ s ∈ sections, IsDistinct s.2
  plain : ∀ s ∈ sections, ∀ m ∈ s.2, m.2.isPlain = true

variable {sections done more : List Section} {members rows : Table} {name : String} {v : Value}
  {cs rest : List Char} {fuel : Nat}

/-! ## What is written -/

namespace Draft

theorem concat_cons (d : Draft) (drafts : List Draft) :
    concat (d :: drafts) = d.append (concat drafts) := rfl

theorem concat_eq (drafts : List Draft) (hwhole : (concat drafts).fault? = none) :
    (∀ d ∈ drafts, d.fault? = none) ∧ (concat drafts).text = drafts.flatMap Draft.text := by
  induction drafts with
  | nil => exact ⟨by simp, rfl⟩
  | cons d drafts ih =>
      rw [concat_cons, append] at hwhole ⊢
      cases hd : d.fault? with
      | some fault =>
          simp only [hd] at hwhole
          cases hwhole
      | none =>
          simp only [hd] at hwhole ⊢
          obtain ⟨hmore, htext⟩ := ih hwhole
          refine ⟨?_, by rw [htext, List.flatMap_cons]⟩
          intro e he
          rcases List.mem_cons.mp he with rfl | he
          · exact hd
          · exact hmore e he

end Draft

/-- The draft of a section: a heading and a line for each member. -/
def sectionDraft (s : Section) : Draft :=
  .concat (.ofText (Bracket.table.line (writeKeyPart s.1)) :: s.2.map plainLine)

theorem isApart_of_isPlain (hv : v.isPlain = true) : isApart v = .ok false := by
  cases v <;> first | rfl | cases hv

theorem sectionsOf_of_isPlain (hv : v.isPlain = true) (heading : List Char) :
    sectionsOf heading v = [] := by
  cases v <;> first | rfl | cases hv

theorem apartness_eq {apart : Bool} (hmembers : ∀ m ∈ members, isApart m.2 = .ok apart) :
    apartness members = .ok (members.map fun _ => apart) := by
  induction members with
  | nil => rfl
  | cons m members ih =>
      have hmore := ih fun n hn => hmembers n (by simp [hn])
      rw [apartness] at hmore ⊢
      rw [List.mapM_cons, hmembers m (by simp), hmore]
      rfl

theorem filterMap_zip (apart : Bool) (members : Table) :
    (members.zip (members.map fun _ => apart)).filterMap
      (fun (m, apart) => if apart then none else some m) = if apart then [] else members := by
  induction members with
  | nil => cases apart <;> rfl
  | cons m members ih => cases apart <;> simpa using ih

theorem innerSections_plain (hmembers : ∀ m ∈ members, m.2.isPlain = true)
    (heading : List Char) : innerSections heading members = [] := by
  induction members with
  | nil => rfl
  | cons m members ih =>
      rw [innerSections, sectionsOf_of_isPlain (hmembers m (by simp)),
        ih fun n hn => hmembers n (by simp [hn])]
      rfl

theorem writeKeyPart_ne_nil (name : String) : writeKeyPart name ≠ [] := by
  obtain ⟨c, more, hcons, -⟩ := writeKeyPart_eq_cons name
  rw [hcons]
  exact List.cons_ne_nil c more

theorem assemble_plain (hmembers : ∀ m ∈ members, m.2.isPlain = true) (name : String) :
    assemble (writeKeyPart name) .table members [] = sectionDraft (name, members) := by
  have hheading : (writeKeyPart name).isEmpty = false :=
    List.isEmpty_eq_false_iff.mpr (writeKeyPart_ne_nil name)
  have hapart := apartness_eq fun m hm => isApart_of_isPlain (hmembers m hm)
  simp only [assemble, hapart, filterMap_zip, hheading]
  simp [sectionDraft]

theorem innerSections_ofSections (hflat : IsFlat sections) :
    innerSections [] (ofSections sections) = sections.map sectionDraft := by
  have hplain := hflat.plain
  clear hflat
  induction sections with
  | nil => rfl
  | cons s sections ih =>
      have hmembers := hplain s (by simp)
      rw [ofSections, List.map_cons, innerSections, sectionsOf, innerSections_plain hmembers]
      show assemble (writeKeyPart s.1) .table s.2 [] :: innerSections [] (ofSections sections) = _
      rw [assemble_plain hmembers, ih fun t ht => hplain t (by simp [ht]), List.map_cons]

theorem write_ofSections (hflat : IsFlat sections) :
    write (ofSections sections) =
      match sections with
      | [] => .empty
      | s :: more => .concat (.empty :: sectionDraft s ::
          more.flatMap fun later => [.ofText ['\n'], sectionDraft later]) := by
  have hapart : apartness (ofSections sections) =
      .ok ((ofSections sections).map fun _ => true) := by
    refine apartness_eq fun m hm => ?_
    obtain ⟨s, -, rfl⟩ := List.mem_map.mp hm
    rfl
  rw [write, assemble, hapart, innerSections_ofSections hflat]
  simp only [filterMap_zip, if_true]
  cases sections with
  | nil => rfl
  | cons s more => simp [List.flatMap_map]

/-! ## What is read -/

/-- Whether reading on from one place of a text with one document is reading on from another place
with another document. -/
def Document.Advances (doc : Document) (cs : List Char) (doc' : Document) (rest : List Char) :
    Prop :=
  ∀ fuel, cs.length < fuel → ∃ left, rest.length < left ∧
    doc.readLines fuel cs = doc'.readLines left rest

/-- Whether some sections are all that was read. Nothing but their headings is marked. -/
structure Document.Holds (doc : Document) (done : List Section) : Prop where
  table : doc.table = ofSections done
  pending : doc.pending = []
  marks : ∀ m ∈ doc.marks, ∃ s ∈ done, m = ⟨[s.1], .opened, false⟩

/-- Whether the last section is being read, and what has been read of it. -/
structure Document.Fills (doc : Document) (done : List Section) (name : String)
    (members : Table) : Prop where
  holds : doc.Holds (done ++ [(name, members)])
  header : doc.header = [name]

namespace Document

variable {doc doc' doc'' : Document}

theorem Advances.trans {middle : List Char} (h : doc.Advances cs doc' middle)
    (h' : doc'.Advances middle doc'' rest) : doc.Advances cs doc'' rest := by
  intro fuel hfuel
  obtain ⟨left, hleft, hread⟩ := h fuel hfuel
  obtain ⟨left', hleft', hread'⟩ := h' left hleft
  exact ⟨left', hleft', hread.trans hread'⟩

theorem Advances.refl (doc : Document) (cs : List Char) : doc.Advances cs doc cs :=
  fun fuel hfuel => ⟨fuel, hfuel, rfl⟩

theorem advances_lineEnd (doc : Document) (rest : List Char) :
    doc.Advances ('\n' :: rest) doc rest := by
  intro fuel hfuel
  obtain ⟨fuel, rfl⟩ := Nat.exists_eq_add_one_of_ne_zero (Nat.ne_zero_of_lt hfuel)
  exact ⟨fuel, Nat.lt_of_succ_lt_succ hfuel, rfl⟩

/-- A line with a statement is read by reading the statement. -/
theorem advances_statement {c : Char} {line : List Char} (hspace : isSpace c = false)
    (hline : c ≠ '\n')
    (hread : doc.readStatement (c :: line) = .ok (doc', '\n' :: rest))
    (hlength : rest.length < line.length) : doc.Advances (c :: line) doc' rest := by
  intro fuel hfuel
  obtain ⟨fuel, rfl⟩ := Nat.exists_eq_add_one_of_ne_zero (Nat.ne_zero_of_lt hfuel)
  rw [List.length_cons] at hfuel
  refine ⟨fuel, by omega, ?_⟩
  rw [readLines, skipSpace_cons hspace]
  split
  · rename_i heq
    cases heq
  · rename_i heq
    exact absurd (List.cons.inj heq).1 hline
  · rw [hread]
    rfl

theorem lookup_new (hname : ∀ s ∈ done, s.1 ≠ name) : (ofSections done).lookup name = none := by
  rw [List.lookup_eq_none_iff]
  intro m hm
  obtain ⟨s, hs, rfl⟩ := List.mem_map.mp hm
  simpa using (hname s hs).symm

theorem lookup_last (hname : ∀ s ∈ done, s.1 ≠ name) (members : Table) :
    (ofSections (done ++ [(name, members)])).lookup name = some (.table members) := by
  rw [ofSections, List.map_append, List.lookup_append, ← ofSections, lookup_new hname]
  simp

namespace Holds

theorem not_frozen (h : doc.Holds done) (key : Key) : marked doc.marks key .frozen = false := by
  rw [marked, List.any_eq_false]
  intro m hm
  obtain ⟨s, -, rfl⟩ := h.marks m hm
  simp

theorem not_opened (h : doc.Holds done) (hname : ∀ s ∈ done, s.1 ≠ name) :
    marked doc.marks [name] .opened = false := by
  rw [marked, List.any_eq_false]
  intro m hm
  obtain ⟨s, hs, rfl⟩ := h.marks m hm
  simpa using hname s hs

theorem moved (h : doc.Holds done) :
    { doc with marks := doc.pending ++ doc.marks, pending := [] } = doc := by
  obtain ⟨table, marks, pending, header⟩ := doc
  obtain rfl : pending = [] := h.pending
  rfl

theorem openTable (h : doc.Holds done) (hname : ∀ s ∈ done, s.1 ≠ name) (rest : List Char) :
    ∃ doc', doc.openTable [name] rest = .ok doc' ∧ doc'.Fills done name [] := by
  have hopen : changeTable true some [name] doc.table =
      some (ofSections (done ++ [(name, [])])) := by
    rw [h.table, changeTable, lookup_new hname]
    simp [changeTable, ofSections]
  refine ⟨{ doc with
    table := ofSections (done ++ [(name, [])])
    marks := ⟨[name], .opened, false⟩ :: doc.marks
    header := [name] }, ?_, ?_⟩
  · rw [Document.openTable, h.not_opened hname, h.not_frozen, hopen]
    rfl
  · refine ⟨⟨rfl, h.pending, ?_⟩, rfl⟩
    intro m hm
    rcases List.mem_cons.mp hm with rfl | hm
    · exact ⟨(name, []), by simp, rfl⟩
    · obtain ⟨s, hs, hmark⟩ := h.marks m hm
      exact ⟨s, List.mem_append_left _ hs, hmark⟩

end Holds

theorem changeTable_last (hname : ∀ s ∈ done, s.1 ≠ name) {key : String}
    (hkey : ∀ m ∈ members, m.1 ≠ key) (v : Value) :
    changeTable true (addMember key v) [name] (ofSections (done ++ [(name, members)])) =
      some (ofSections (done ++ [(name, members ++ [(key, v)])])) := by
  have hadd : addMember key v members = some (members ++ [(key, v)]) := by
    have hnone : members.lookup key = none := by
      rw [List.lookup_eq_none_iff]
      exact fun m hm => by simpa using (hkey m hm).symm
    rw [addMember, hnone]
    rfl
  have hold : (ofSections done).map (fun m =>
      if m.1 = name then (name, .table (members ++ [(key, v)])) else m) = ofSections done := by
    rw [List.map_congr_left (g := id), List.map_id]
    intro m hm
    obtain ⟨s, hs, rfl⟩ := List.mem_map.mp hm
    exact if_neg (hname s hs)
  rw [changeTable, lookup_last hname]
  simp only [changeTable, hadd, Option.bind_eq_bind, Option.bind_some, Option.pure_def]
  rw [ofSections, List.map_append, List.map_append, ← ofSections, hold]
  simp [ofSections]

theorem Fills.put (h : doc.Fills done name members) (hname : ∀ s ∈ done, s.1 ≠ name) {key : String}
    (hkey : ∀ m ∈ members, m.1 ≠ key) (hv : v.isPlain = true) (rest : List Char) :
    ∃ doc', doc.put [key] v rest = .ok doc' ∧ doc'.Fills done name (members ++ [(key, v)]) := by
  have hcontainer : isContainer v = false := by
    cases v <;> first | rfl | cases hv
  have hchange := changeTable_last hname hkey v
  rw [← h.holds.table, ← h.header] at hchange
  refine ⟨{ doc with table := ofSections (done ++ [(name, members ++ [(key, v)])]) }, ?_, ?_⟩
  · have hpass : doc.passThrough [key] ([key].length - 1) = .ok [] := rfl
    simp only [Document.put, hpass, List.dropLast_singleton, List.append_nil,
      h.holds.not_frozen, List.getLastD_cons, List.getLastD_nil, hchange, hcontainer]
    rfl
  · refine ⟨⟨rfl, h.holds.pending, ?_⟩, h.header⟩
    intro m hm
    obtain ⟨s, hs, hmark⟩ := h.holds.marks m hm
    rcases List.mem_append.mp hs with hs | hs
    · exact ⟨s, List.mem_append_left _ hs, hmark⟩
    · obtain rfl := List.mem_singleton.mp hs
      exact ⟨(name, members ++ [(key, v)]), by simp, hmark⟩

/-- A heading opens its section. -/
theorem Holds.advances_heading (h : doc.Holds done) (hname : ∀ s ∈ done, s.1 ≠ name)
    (rest : List Char) :
    ∃ doc', doc'.Fills done name [] ∧
      doc.Advances (Bracket.table.line (writeKeyPart name) ++ rest) doc' rest := by
  obtain ⟨c, more, hcons, hc⟩ := writeKeyPart_eq_cons name
  obtain ⟨doc', hopen, hfills⟩ := h.openTable hname (']' :: '\n' :: rest)
  refine ⟨doc', hfills, ?_⟩
  have hkey : ∀ fuel, readKey (fuel + 1) (writeKeyPart name ++ ']' :: '\n' :: rest) =
      .ok ([name], ']' :: '\n' :: rest) :=
    fun fuel => readKey_writeKeyPart name fuel (by simp; decide)
      (by rw [skipSpace_cons (by decide)]; simp)
  have hline : Bracket.table.line (writeKeyPart name) ++ rest =
      '[' :: (writeKeyPart name ++ ']' :: '\n' :: rest) := by
    simp [Bracket.line]
  rw [hline]
  refine advances_statement (by decide) (by decide) ?_ (by simp; omega)
  have hbracket : c ≠ '[' := by
    rintro rfl
    exact absurd hc (by decide)
  rw [hcons, List.cons_append] at hkey ⊢
  rw [readStatement, h.moved, skipSpace_cons (isSpace_of_keyStart hc), hkey]
  · show (doc.openTable [name] (']' :: '\n' :: rest) >>= fun doc => _) = _
    rw [hopen]
    rfl
  · exact fun _ heq => hbracket (List.cons.inj heq).1

theorem readStatement_pair {c : Char} {line after : List Char} {key : Key}
    (hc : isBareKeyChar c = true ∨ c = '"')
    (hpair : ∀ fuel, readPair (fuel + 2) (c :: line) = .ok ((key, v), after))
    (hput : doc.put key v after = .ok doc') :
    doc.readStatement (c :: line) = .ok (doc', skipSpace after) := by
  have hmarks : c ≠ '[' ∧ c ≠ '#' := by
    constructor <;>
    · rintro rfl
      exact absurd hc (by decide)
  have hstart : (isBareKeyChar c || decide (c = '"') || decide (c = '\'')) = true := by
    rcases hc with hc | rfl
    · rw [hc]
      rfl
    · decide
  rw [readStatement.eq_4 _ _ _ hmarks.1 hmarks.2, if_pos hstart, hpair]
  show (doc.put key v after >>= fun doc => _) = _
  rw [hput]
  rfl

/-- The line of a member puts it into the section that is being read. -/
theorem Fills.advances_line (h : doc.Fills done name members) (hname : ∀ s ∈ done, s.1 ≠ name)
    {m : String × Value} (hm : ∀ n ∈ members, n.1 ≠ m.1) (hplain : m.2.isPlain = true)
    (hwhole : (plainLine m).fault? = none) (rest : List Char) :
    ∃ doc', doc'.Fills done name (members ++ [m]) ∧
      doc.Advances ((plainLine m).text ++ rest) doc' rest := by
  obtain ⟨key, v⟩ := m
  cases hvalue : writeValue 0 v with
  | error fault => simp [plainLine, hvalue, Draft.ofResult] at hwhole
  | ok written =>
      obtain ⟨c, more, hcons, hc⟩ := writeKeyPart_eq_cons key
      obtain ⟨doc', hput, hfills⟩ := h.put hname hm hplain ('\n' :: rest)
      have hpair := fun fuel => readPair_line key hplain hvalue fuel rest
      have hline : (plainLine (key, v)).text ++ rest =
          writeKeyPart key ++ ' ' :: '=' :: ' ' :: (written ++ '\n' :: rest) := by
        simp [plainLine, hvalue, Draft.ofResult]
      refine ⟨doc', hfills, ?_⟩
      rw [hline]
      rw [hcons, List.cons_append] at hpair ⊢
      refine advances_statement (isSpace_of_keyStart hc) ?_ ?_ (by simp; omega)
      · rintro rfl
        exact absurd hc (by decide)
      · exact readStatement_pair hc hpair hput

theorem Fills.advances_lines (h : doc.Fills done name members) (hname : ∀ s ∈ done, s.1 ≠ name)
    (hdistinct : IsDistinct (members ++ rows)) (hplain : ∀ m ∈ rows, m.2.isPlain = true)
    (hwhole : ∀ m ∈ rows, (plainLine m).fault? = none) (rest : List Char) :
    ∃ doc', doc'.Fills done name (members ++ rows) ∧
      doc.Advances (rows.flatMap (fun m => (plainLine m).text) ++ rest) doc' rest := by
  induction rows generalizing doc members with
  | nil => exact ⟨doc, by rwa [List.append_nil], .refl doc rest⟩
  | cons m rows ih =>
      obtain ⟨middle, hmiddle, hline⟩ := h.advances_line hname hdistinct.ne_of_mem
        (hplain m (by simp)) (hwhole m (by simp))
        (rows.flatMap (fun m => (plainLine m).text) ++ rest)
      rw [List.append_cons] at hdistinct
      obtain ⟨doc', hdoc', hlines⟩ := ih hmiddle hdistinct (fun n hn => hplain n (by simp [hn]))
        fun n hn => hwhole n (by simp [hn])
      refine ⟨doc', by rwa [List.append_cons], ?_⟩
      rw [List.flatMap_cons, List.append_assoc]
      exact hline.trans hlines

/-- What was written for a section is read as that section. -/
theorem Holds.advances_section (h : doc.Holds done) {s : Section} (hname : ∀ t ∈ done, t.1 ≠ s.1)
    (hdistinct : IsDistinct s.2) (hplain : ∀ m ∈ s.2, m.2.isPlain = true)
    (hwhole : (sectionDraft s).fault? = none) (rest : List Char) :
    ∃ doc', doc'.Holds (done ++ [s]) ∧ doc.Advances ((sectionDraft s).text ++ rest) doc' rest := by
  obtain ⟨name, rows⟩ := s
  obtain ⟨hlines, htext⟩ := Draft.concat_eq _ hwhole
  have hrows : ∀ m ∈ rows, (plainLine m).fault? = none :=
    fun m hm => hlines _ (List.mem_cons_of_mem _ (List.mem_map_of_mem hm))
  obtain ⟨middle, hmiddle, hheading⟩ :=
    h.advances_heading hname (rows.flatMap (fun m => (plainLine m).text) ++ rest)
  obtain ⟨doc', hdoc', hrest⟩ := hmiddle.advances_lines hname hdistinct hplain hrows rest
  refine ⟨doc', hdoc'.holds, ?_⟩
  have hsplit : (sectionDraft (name, rows)).text ++ rest =
      Bracket.table.line (writeKeyPart name) ++
        (rows.flatMap (fun m => (plainLine m).text) ++ rest) := by
    rw [sectionDraft, htext, List.flatMap_cons, List.flatMap_map, List.append_assoc]
    rfl
  rw [hsplit]
  exact hheading.trans hrest

theorem Holds.advances_sections (h : doc.Holds done) (hflat : IsFlat (done ++ more))
    (hwhole : ∀ s ∈ more, (sectionDraft s).fault? = none) :
    ∃ doc', doc'.Holds (done ++ more) ∧
      doc.Advances (more.flatMap fun s => '\n' :: (sectionDraft s).text) doc' [] := by
  induction more generalizing doc done with
  | nil => exact ⟨doc, by rwa [List.append_nil], .refl doc []⟩
  | cons s more ih =>
      have hmem : s ∈ done ++ s :: more := by simp
      obtain ⟨middle, hmiddle, hsection⟩ := h.advances_section hflat.distinct.ne_of_mem
        (hflat.distinctMembers s hmem) (hflat.plain s hmem) (hwhole s (by simp))
        (more.flatMap fun s => '\n' :: (sectionDraft s).text)
      rw [List.append_cons] at hflat
      obtain ⟨doc', hdoc', hmore⟩ := ih hmiddle hflat fun t ht => hwhole t (by simp [ht])
      refine ⟨doc', by rwa [List.append_cons], ?_⟩
      rw [List.flatMap_cons, List.cons_append]
      exact (doc.advances_lineEnd _).trans (hsection.trans hmore)

end Document

/-! ## What was written is read -/

theorem plainLine_no_return {m : String × Value} (hm : m.2.isPlain = true) :
    '\r' ∉ (plainLine m).text := by
  rw [plainLine]
  cases hvalue : writeValue 0 m.2 with
  | error fault => exact List.not_mem_nil
  | ok written =>
      have hkey := writeKeyPart_no_return m.1
      have hwritten := writeValue_no_return hm hvalue
      show '\r' ∉ writeKeyPart m.1 ++ " = ".toList ++ written ++ ['\n']
      simp [hkey, hwritten]

theorem sectionDraft_no_return {s : Section} (hplain : ∀ m ∈ s.2, m.2.isPlain = true)
    (hwhole : (sectionDraft s).fault? = none) : '\r' ∉ (sectionDraft s).text := by
  have hkey := writeKeyPart_no_return s.1
  rw [sectionDraft, (Draft.concat_eq _ hwhole).2, List.flatMap_cons, List.flatMap_map,
    List.mem_append, not_or]
  constructor
  · simp [Draft.ofText, Bracket.line, hkey]
  · rw [List.mem_flatMap]
    rintro ⟨m, hm, hreturn⟩
    exact plainLine_no_return (hplain m hm) hreturn

/-- The sections of a document follow each other with an empty line between them. -/
theorem write_cons_eq {s : Section} (hflat : IsFlat (s :: more))
    (hwhole : (write (ofSections (s :: more))).fault? = none) :
    (∀ t ∈ s :: more, (sectionDraft t).fault? = none) ∧
      (write (ofSections (s :: more))).text =
        (sectionDraft s).text ++ more.flatMap fun t => '\n' :: (sectionDraft t).text := by
  rw [write_ofSections hflat] at hwhole ⊢
  obtain ⟨hdrafts, htext⟩ := Draft.concat_eq _ hwhole
  constructor
  · intro t ht
    refine hdrafts _ ?_
    rcases List.mem_cons.mp ht with rfl | ht
    · simp
    · simp only [List.mem_cons, List.mem_flatMap]
      exact .inr (.inr ⟨t, ht, by simp⟩)
  · rw [htext, List.flatMap_cons, List.flatMap_cons, List.flatMap_assoc]
    simp [Draft.empty, Draft.ofText]

/-- A document of sections is read back from what was written for it. -/
theorem read_write (hflat : IsFlat sections)
    (hwhole : (write (ofSections sections)).fault? = none) :
    read (String.ofList (write (ofSections sections)).text) = .ok (ofSections sections) := by
  cases sections with
  | nil => rfl
  | cons s more =>
      obtain ⟨hdrafts, htext⟩ := write_cons_eq hflat hwhole
      have hreturn : '\r' ∉ (write (ofSections (s :: more))).text := by
        rw [htext, List.mem_append, not_or, List.mem_flatMap]
        refine ⟨sectionDraft_no_return (hflat.plain s (by simp)) (hdrafts s (by simp)), ?_⟩
        rintro ⟨t, ht, hmem⟩
        rcases List.mem_cons.mp hmem with heq | hmem
        · exact absurd heq (by decide)
        · exact sectionDraft_no_return (hflat.plain t (List.mem_cons_of_mem s ht))
            (hdrafts t (List.mem_cons_of_mem s ht)) hmem
      have hempty : (⟨[], [], [], []⟩ : Document).Holds [] := ⟨rfl, rfl, by simp⟩
      obtain ⟨middle, hmiddle, hfirst⟩ := hempty.advances_section (by simp)
        (hflat.distinctMembers s (by simp)) (hflat.plain s (by simp)) (hdrafts s (by simp))
        (more.flatMap fun t => '\n' :: (sectionDraft t).text)
      obtain ⟨doc, hdoc, hmore⟩ :=
        hmiddle.advances_sections hflat fun t ht => hdrafts t (List.mem_cons_of_mem s ht)
      obtain ⟨left, hleft, hread⟩ := hfirst.trans hmore _ (Nat.lt_succ_self _)
      obtain ⟨left, rfl⟩ := Nat.exists_eq_add_one_of_ne_zero (Nat.ne_zero_of_lt hleft)
      rw [← htext] at hread
      have hlines : Document.readLines ((write (ofSections (s :: more))).text.length + 1)
          ⟨[], [], [], []⟩ (write (ofSections (s :: more))).text = .ok doc := hread
      simp only [read, String.toList_ofList, joinLineEnds_eq_self hreturn, hlines]
      exact congrArg Except.ok hdoc.table

end LinkShelf.Toml
