import LinkShelf.Storage.FileSystem
import Mathlib.Data.List.Basic

/-!
What a location holds after a change to a file system, and which changes leave the way to it and
some of the names in a directory as they are.
-/

namespace LinkShelf.FileSystem

section Lookup

variable {entries : List (Location × Node)} {l m : Location} {n : Node}

theorem lookup_replaced (hm : m ≠ l) :
    (entries.map fun e => if e.1 = l then (l, n) else e).lookup m = entries.lookup m := by
  induction entries with
  | nil => rfl
  | cons e rest ih =>
      obtain ⟨k, node⟩ := e
      by_cases hk : k = l
      · have hne : (m == l) = false := by simpa using hm
        simp [hk, List.lookup_cons, hne, ih]
      · simp only [List.map_cons, hk, if_false, List.lookup_cons, ih]

theorem lookup_replaced_self (hl : ∃ e ∈ entries, e.1 = l) :
    (entries.map fun e => if e.1 = l then (l, n) else e).lookup l = some n := by
  induction entries with
  | nil => simp at hl
  | cons e rest ih =>
      obtain ⟨k, node⟩ := e
      by_cases hk : k = l
      · simp [hk]
      · have hne : (l == k) = false := by simpa using Ne.symm hk
        have hrest : ∃ e ∈ rest, e.1 = l := by simpa [hk] using hl
        simp only [List.map_cons, hk, if_false, List.lookup_cons, hne, ih hrest]

theorem lookup_eq_none (hl : ∀ e ∈ entries, e.1 ≠ l) : entries.lookup l = none := by
  rw [List.lookup_eq_none_iff]
  intro e he
  simpa using Ne.symm (hl e he)

theorem lookup_filtered (hm : m ≠ l) :
    (entries.filter fun e => e.1 ≠ l).lookup m = entries.lookup m := by
  induction entries with
  | nil => rfl
  | cons e rest ih =>
      obtain ⟨k, node⟩ := e
      by_cases hk : k = l
      · have hne : (m == l) = false := by simpa using hm
        simpa [hk, List.lookup_cons, hne] using ih
      · simp only [List.filter_cons, hk, ne_eq, not_false_eq_true, decide_true, if_true,
          List.lookup_cons]
        rw [← ih]

end Lookup

variable {fs other : FileSystem} {l m : Location} {n : Node} {name : String}

theorem node?_put (hl : l ≠ []) : (fs.put l n).node? m = if m = l then some n else fs.node? m := by
  by_cases hm : m = l
  · subst hm
    simp only [node?, hl, if_false, if_true, put]
    split
    · next hany => exact lookup_replaced_self (by simpa using hany)
    · next hany =>
        have hnew : ∀ e ∈ fs.entries, e.1 ≠ m := fun e he heq =>
          hany (List.any_eq_true.mpr ⟨e, he, by simpa using heq⟩)
        rw [List.lookup_append, lookup_eq_none hnew]
        simp
  · simp only [node?, hm, if_false, put]
    split
    · rfl
    · split
      · exact lookup_replaced hm
      · have hne : (m == l) = false := by simpa using hm
        simp [List.lookup_append, List.lookup_cons, hne]

theorem node?_drop (hl : l ≠ []) : (fs.drop l).node? m = if m = l then none else fs.node? m := by
  by_cases hm : m = l
  · subst hm
    simp only [node?, hl, if_false, if_true, drop]
    exact lookup_eq_none (by simp)
  · simp only [node?, hm, if_false, drop, lookup_filtered hm]

/-- Where nothing is, nothing is taken away. -/
theorem drop_eq_self (hl : l ≠ []) (hnone : fs.node? l = none) : fs.drop l = fs := by
  obtain ⟨entries⟩ := fs
  rw [node?, if_neg hl, List.lookup_eq_none_iff] at hnone
  rw [drop, FileSystem.mk.injEq, List.filter_eq_self]
  intro e he
  simpa using Ne.symm (by simpa using hnone e he : l ≠ e.1)

/-- The name that an entry has in a directory. -/
def nameIn? (l : Location) (e : Location × Node) : Option String :=
  match e.1.getLast? with
  | some name => if e.1.dropLast = l then some name else none
  | none => none

theorem nameIn?_eq_some {e : Location × Node} : nameIn? l e = some name ↔ e.1 = l ++ [name] := by
  obtain ⟨k, node⟩ := e
  rcases List.eq_nil_or_concat k with rfl | ⟨init, last, rfl⟩
  · simp [nameIn?]
  · rw [List.concat_eq_append, List.append_singleton_inj]
    simp [nameIn?]

theorem mem_names : name ∈ fs.names l ↔ ∃ e ∈ fs.entries, e.1 = l ++ [name] := by
  simp only [← nameIn?_eq_some]
  exact List.mem_filterMap

theorem names_eq_filterMap : fs.names l = fs.entries.filterMap (nameIn? l) := rfl

/-- A name is in a directory exactly if something is under it. -/
theorem mem_names_iff_node? : name ∈ fs.names l ↔ fs.node? (l ++ [name]) ≠ none := by
  have hroot : l ++ [name] ≠ [] := by simp
  rw [mem_names, node?, if_neg hroot, ne_eq, List.lookup_eq_none_iff]
  constructor
  · rintro ⟨e, he, hlocation⟩ hnone
    simpa [hlocation] using hnone e he
  · intro hfound
    by_contra hnone
    apply hfound
    intro e he
    simpa using fun heq : l ++ [name] = e.1 => hnone ⟨e, he, heq.symm⟩

theorem names_put_of_mem (hname : name ∈ fs.names l) :
    (fs.put (l ++ [name]) n).names l = fs.names l := by
  have hany : (fs.entries.any fun e => e.1 = l ++ [name]) = true := by
    obtain ⟨e, he, hlocation⟩ := mem_names.mp hname
    exact List.any_eq_true.mpr ⟨e, he, by simpa using hlocation⟩
  rw [put, if_pos hany, names_eq_filterMap, names_eq_filterMap, List.filterMap_map]
  apply List.filterMap_congr
  intro e _
  by_cases he : e.1 = l ++ [name]
  · simp [he, nameIn?]
  · simp [he]

theorem names_put_of_not_mem (hname : name ∉ fs.names l) :
    (fs.put (l ++ [name]) n).names l = fs.names l ++ [name] := by
  have hany : ¬ (fs.entries.any fun e => e.1 = l ++ [name]) = true := by
    intro hany
    obtain ⟨e, he, hlocation⟩ := List.any_eq_true.mp hany
    exact hname (mem_names.mpr ⟨e, he, by simpa using hlocation⟩)
  have hnew : nameIn? l (l ++ [name], n) = some name := nameIn?_eq_some.mpr rfl
  rw [put, if_neg hany, names_eq_filterMap, List.filterMap_append]
  simp [hnew, names_eq_filterMap]

/-- What is put into one directory is no name of another one. -/
theorem names_put_elsewhere {m : Location} (hm : m ≠ l) :
    (fs.put (m ++ [name]) n).names l = fs.names l := by
  have hnone : ∀ node, nameIn? l (m ++ [name], node) = none := by
    intro node
    rw [Option.eq_none_iff_forall_ne_some]
    intro other hother
    exact hm (List.append_inj_left' (nameIn?_eq_some.mp hother) rfl)
  rw [put]
  split
  · rw [names_eq_filterMap, names_eq_filterMap, List.filterMap_map]
    apply List.filterMap_congr
    intro e _
    obtain ⟨place, node⟩ := e
    by_cases he : place = m ++ [name]
    · simp [he, hnone]
    · simp [he]
  · simp [names_eq_filterMap, hnone]

theorem names_drop : (fs.drop (l ++ [name])).names l = (fs.names l).filter (· ≠ name) := by
  rw [drop, names_eq_filterMap, names_eq_filterMap, List.filter_filterMap, List.filterMap_filter]
  apply List.filterMap_congr
  intro e _
  by_cases he : e.1 = l ++ [name]
  · simp [he, nameIn?, Option.filter]
  · have hother : nameIn? l e ≠ some name := fun h => he (nameIn?_eq_some.mp h)
    cases hfound : nameIn? l e with
    | none => simp
    | some found =>
        have hne : found ≠ name := fun h => hother (h ▸ hfound)
        simp [he, hne, Option.filter]

/-! ## Ways -/

/-- Whether two file systems have the same directories. -/
def SameDirectories (fs other : FileSystem) : Prop :=
  ∀ l, other.isDirectory l = fs.isDirectory l

theorem sameDirectories_put_file {content : ByteArray} (hl : fs.isDirectory l = false) :
    SameDirectories fs (fs.put l (.file content)) := by
  intro m
  have hroot : l ≠ [] := by
    rintro rfl
    simp [isDirectory, node?] at hl
  by_cases hm : m = l
  · simp [isDirectory, node?_put hroot, hm]
    simpa [isDirectory] using hl
  · simp [isDirectory, node?_put hroot, hm]

theorem sameDirectories_drop (hl : fs.isDirectory l = false) :
    SameDirectories fs (fs.drop l) := by
  intro m
  have hroot : l ≠ [] := by
    rintro rfl
    simp [isDirectory, node?] at hl
  by_cases hm : m = l
  · simp [isDirectory, node?_drop hroot, hm]
    simpa [isDirectory] using hl
  · simp [isDirectory, node?_drop hroot, hm]

theorem walk_cons_eq_ok {path : String} {rest : List String} {target : Location} :
    fs.walk path l (name :: rest) = .ok target ↔
      fs.isDirectory l = true ∧
        ((name = ".." ∧ fs.walk path l.dropLast rest = .ok target) ∨
          (name ≠ ".." ∧ name.utf8ByteSize ≤ maxNameBytes ∧
            fs.walk path (l ++ [name]) rest = .ok target)) := by
  rw [walk]
  cases hnode : fs.node? l with
  | none => simp [isDirectory, hnode]
  | some node =>
      cases node with
      | file content => simp [isDirectory, hnode]
      | directory =>
          simp only [isDirectory, hnode, decide_true, true_and]
          by_cases hup : name = ".."
          · simp [hup]
          · by_cases hlong : maxNameBytes < name.utf8ByteSize
            · simp [hup, hlong, Nat.not_le.mpr hlong]
            · simp [hup, hlong, Nat.not_lt.mp hlong]

/-- The way along some names needs directories alone. -/
theorem walk_mono (hmono : ∀ m, fs.isDirectory m = true → other.isDirectory m = true)
    {path shown : String} {names : List String} {target : Location}
    (hwalk : fs.walk path l names = .ok target) : other.walk shown l names = .ok target := by
  induction names generalizing l with
  | nil => simpa [walk] using hwalk
  | cons name rest ih =>
      rw [walk_cons_eq_ok] at hwalk ⊢
      obtain ⟨hdirectory, hrest⟩ := hwalk
      refine ⟨hmono l hdirectory, ?_⟩
      rcases hrest with ⟨hup, hrest⟩ | ⟨hup, hsize, hrest⟩
      · exact .inl ⟨hup, ih hrest⟩
      · exact .inr ⟨hup, hsize, ih hrest⟩

theorem walk_of_sameDirectories (hsame : SameDirectories fs other) {path shown : String}
    {names : List String} {target : Location} (hwalk : fs.walk path l names = .ok target) :
    other.walk shown l names = .ok target :=
  walk_mono (fun m hm => (hsame m).trans hm) hwalk

/-- A longer way is the shorter one, followed further. -/
theorem walk_append {path : String} {names more : List String} :
    fs.walk path l (names ++ more) =
      match fs.walk path l names with
      | .ok mid => fs.walk path mid more
      | .error fault => .error fault := by
  induction names generalizing l with
  | nil => rfl
  | cons first rest ih =>
      rw [List.cons_append, walk, walk]
      cases fs.node? l with
      | none => rfl
      | some node =>
          cases node with
          | file content => rfl
          | directory =>
              dsimp only
              split
              · exact ih
              · split
                · rfl
                · exact ih

/-- The way along some names does not look at what ends a path. -/
theorem walk_ne_pathWithEnd {path : String} {names : List String} :
    fs.walk path l names ≠ .error .pathWithEnd := by
  induction names generalizing l with
  | nil => simp [walk]
  | cons first rest ih =>
      rw [walk]
      cases fs.node? l with
      | none => simp
      | some node =>
          cases node with
          | file content => simp
          | directory =>
              dsimp only
              split
              · exact ih
              · split
                · simp
                · exact ih

theorem sameDirectories_refl : SameDirectories fs fs := fun _ => rfl

/-- The way to a name in a directory leads through the directory. -/
theorem walk_concat {path shown : String} {names : List String} {start target : Location}
    (hname : name ≠ "..") (hwalk : fs.walk path start names = .ok l)
    (hchild : fs.walk shown start (names ++ [name]) = .ok target) :
    target = l ++ [name] ∧ fs.isDirectory l = true := by
  induction names generalizing start with
  | nil =>
      obtain rfl : start = l := by simpa [walk] using hwalk
      rw [List.nil_append, walk_cons_eq_ok] at hchild
      obtain ⟨hdirectory, ⟨hup, -⟩ | ⟨-, -, hrest⟩⟩ := hchild
      · exact absurd hup hname
      · exact ⟨by simpa [walk] using hrest.symm, hdirectory⟩
  | cons first rest ih =>
      rw [List.cons_append, walk_cons_eq_ok] at hchild
      rw [walk_cons_eq_ok] at hwalk
      obtain ⟨-, ⟨hup, hrest⟩ | ⟨hup, -, hrest⟩⟩ := hwalk
      · obtain ⟨-, ⟨-, hmore⟩ | ⟨hother, -⟩⟩ := hchild
        · exact ih hrest hmore
        · exact absurd hup hother
      · obtain ⟨-, ⟨hother, -⟩ | ⟨-, -, hmore⟩⟩ := hchild
        · exact absurd hother hup
        · exact ih hrest hmore

end LinkShelf.FileSystem

namespace LinkShelf.FileSystem

/-! ## Agreement -/

/-- Whether two file systems have the same directories and, in one of them, under the names that are
shown, the same nodes. -/
structure Agree (shown : String → Bool) (l : Location) (fs other : FileSystem) : Prop where
  directories : SameDirectories fs other
  names : (other.names l).filter shown = (fs.names l).filter shown
  nodes : ∀ name, shown name = true → other.node? (l ++ [name]) = fs.node? (l ++ [name])

namespace Agree

variable {shown : String → Bool} {fs mid other : FileSystem} {l : Location} {name : String}
  {content : ByteArray}

theorem refl : Agree shown l fs fs := ⟨sameDirectories_refl, rfl, fun _ _ => rfl⟩

theorem symm (h : Agree shown l fs other) : Agree shown l other fs :=
  ⟨fun m => (h.directories m).symm, h.names.symm, fun name hname => (h.nodes name hname).symm⟩

theorem trans (h : Agree shown l fs mid) (h' : Agree shown l mid other) : Agree shown l fs other :=
  ⟨fun m => (h'.directories m).trans (h.directories m), h'.names.trans h.names,
    fun name hname => (h'.nodes name hname).trans (h.nodes name hname)⟩

theorem put_hidden (hname : shown name = false) (hfile : fs.isDirectory (l ++ [name]) = false) :
    Agree shown l fs (fs.put (l ++ [name]) (.file content)) := by
  refine ⟨sameDirectories_put_file hfile, ?_, ?_⟩
  · by_cases hmem : name ∈ fs.names l
    · rw [names_put_of_mem hmem]
    · rw [names_put_of_not_mem hmem]
      simp [List.filter_append, hname]
  · intro m hm
    have hne : m ≠ name := by
      rintro rfl
      simp [hname] at hm
    rw [node?_put (by simp), if_neg (by simpa using hne)]

theorem drop_hidden (hname : shown name = false) (hfile : fs.isDirectory (l ++ [name]) = false) :
    Agree shown l fs (fs.drop (l ++ [name])) := by
  refine ⟨sameDirectories_drop hfile, ?_, ?_⟩
  · rw [names_drop, List.filter_filter]
    apply List.filter_congr
    intro m _
    by_cases hm : m = name
    · simp [hm, hname]
    · simp [hm]
  · intro m hm
    have hne : m ≠ name := by
      rintro rfl
      simp [hname] at hm
    rw [node?_drop (by simp), if_neg (by simpa using hne)]

/-- Agreement is kept when the same file is put into both. -/
theorem put (h : Agree shown l fs other) (hfile : fs.isDirectory (l ++ [name]) = false) :
    Agree shown l (fs.put (l ++ [name]) (.file content))
      (other.put (l ++ [name]) (.file content)) := by
  have hother : other.isDirectory (l ++ [name]) = false := (h.directories _).trans hfile
  refine ⟨?_, ?_, ?_⟩
  · intro m
    rw [sameDirectories_put_file hfile m, sameDirectories_put_file hother m]
    exact h.directories m
  · cases hname : shown name with
    | false => exact (((put_hidden hname hfile).names.trans h.names.symm).trans
        (put_hidden hname hother).names.symm).symm
    | true =>
        have hmem : name ∈ other.names l ↔ name ∈ fs.names l := by
          have := congrArg (name ∈ ·) h.names
          simpa [List.mem_filter, hname] using this
        by_cases hfound : name ∈ fs.names l
        · rw [names_put_of_mem hfound, names_put_of_mem (hmem.mpr hfound), h.names]
        · rw [names_put_of_not_mem hfound, names_put_of_not_mem (mt hmem.mp hfound),
            List.filter_append, List.filter_append, h.names]
  · intro m hm
    rw [node?_put (by simp), node?_put (by simp), h.nodes m hm]

end Agree

end LinkShelf.FileSystem
