import LinkShelf.Json.Reader
import LinkShelf.Proofs.Outcome

/-!
Values that are read from JSON texts. Main statement: what is so of texts, words and numbers that
are read, and passes from parts to lists and objects, is so of every value that is read
(`holds_of_readWithin`).
-/

namespace LinkShelf.Json

variable {P : Json → Prop} {limit : Option Nat} {v : Json} {cs rest : List Char}
  {items : List Json} {members found : List (String × Json)}

theorem mem_of_mem_putMember {name : String} {m : String × Json}
    (hm : m ∈ putMember name v found) : m ∈ found ∨ m.2 = v := by
  induction found with
  | nil =>
      obtain rfl := List.mem_singleton.mp hm
      exact .inr rfl
  | cons first rest ih =>
      rw [putMember] at hm
      split at hm
      · obtain rfl | hm := List.mem_cons.mp hm
        · exact .inr rfl
        · exact .inl (List.mem_cons_of_mem _ hm)
      · obtain rfl | hm := List.mem_cons.mp hm
        · exact .inl List.mem_cons_self
        · exact (ih hm).imp_left (List.mem_cons_of_mem _)

/-- Whether something passes from the simplest values that can be read to all others. -/
structure IsPassedOn (limit : Option Nat) (P : Json → Prop) : Prop where
  text : ∀ s, P (.text s)
  word : ∀ w ∈ words, P w.2
  number : ∀ {cs v rest}, readNumber limit cs = .ok (v, rest) → P v
  list : ∀ {items}, (∀ item ∈ items, P item) → P (.list items)
  object : ∀ {members}, (∀ m ∈ members, P m.2) → P (.object members)

/-- Whether something is so of all values that are read with some fuel. -/
structure HoldsOfRead (limit : Option Nat) (P : Json → Prop) (fuel : Nat) : Prop where
  value : ∀ {cs v rest}, readValue limit fuel cs = .ok (v, rest) → P v
  items : ∀ {cs items rest}, readItems limit fuel cs = .ok (items, rest) → ∀ item ∈ items, P item
  members : ∀ {found cs members rest}, (∀ m ∈ found, P m.2) →
    readMembers limit fuel found cs = .ok (members, rest) → ∀ m ∈ members, P m.2

variable {fuel : Nat}

theorem HoldsOfRead.value_succ (hP : IsPassedOn limit P) (ih : HoldsOfRead limit P fuel)
    (h : readValue limit (fuel + 1) cs = .ok (v, rest)) : P v := by
  rw [readValue.eq_def] at h
  dsimp only at h
  split at h
  · obtain ⟨⟨s, after⟩, -, h⟩ := bind_eq_ok.mp h
    cases h
    exact hP.text _
  · split at h
    · cases h
      exact hP.list (List.forall_mem_nil _)
    · obtain ⟨⟨items, after⟩, hitems, h⟩ := bind_eq_ok.mp h
      cases h
      exact hP.list (ih.items hitems)
  · split at h
    · cases h
      exact hP.object (List.forall_mem_nil _)
    · obtain ⟨⟨members, after⟩, hmembers, h⟩ := bind_eq_ok.mp h
      cases h
      exact hP.object (ih.members (List.forall_mem_nil _) hmembers)
  · split at h
    · next hword =>
        cases h
        obtain ⟨w, hw, heq⟩ := Option.map_eq_some_iff.mp hword
        cases heq
        exact hP.word w (List.mem_of_find?_eq_some hw)
    · exact hP.number h

theorem HoldsOfRead.items_succ (ih : HoldsOfRead limit P fuel)
    (h : readItems limit (fuel + 1) cs = .ok (items, rest)) : ∀ item ∈ items, P item := by
  rw [readItems.eq_def] at h
  obtain ⟨⟨v, afterValue⟩, hvalue, h⟩ := bind_eq_ok.mp h
  dsimp only at h
  split at h
  · cases h
    exact List.forall_mem_singleton.mpr (ih.value hvalue)
  · obtain ⟨⟨more, afterItems⟩, hmore, h⟩ := bind_eq_ok.mp h
    cases h
    exact List.forall_mem_cons.mpr ⟨ih.value hvalue, ih.items hmore⟩
  · cases h

theorem HoldsOfRead.members_succ (ih : HoldsOfRead limit P fuel) (hfound : ∀ m ∈ found, P m.2)
    (h : readMembers limit (fuel + 1) found cs = .ok (members, rest)) : ∀ m ∈ members, P m.2 := by
  rw [readMembers.eq_def] at h
  dsimp only at h
  split at h
  · obtain ⟨⟨name, afterName⟩, -, h⟩ := bind_eq_ok.mp h
    dsimp only at h
    split at h
    · obtain ⟨⟨v, afterValue⟩, hvalue, h⟩ := bind_eq_ok.mp h
      have hput : ∀ m ∈ putMember (String.ofList name) v found, P m.2 := by
        intro m hm
        obtain hm | hm := mem_of_mem_putMember hm
        · exact hfound m hm
        · rw [hm]
          exact ih.value hvalue
      dsimp only at h
      split at h
      · cases h
        exact hput
      · exact ih.members hput h
      · cases h
    · cases h
  · cases h

theorem holdsOfRead (hP : IsPassedOn limit P) (fuel : Nat) : HoldsOfRead limit P fuel := by
  induction fuel with
  | zero => exact ⟨nofun, nofun, nofun⟩
  | succ fuel ih => exact ⟨ih.value_succ hP, ih.items_succ, ih.members_succ⟩

/-- What is passed on is so of every value that a text writes. -/
theorem holds_of_readWithin (hP : IsPassedOn limit P) {s : String}
    (h : readWithin limit s = .ok v) : P v := by
  rw [readWithin] at h
  split at h
  · next hwhole =>
      cases h
      rw [readWhole] at hwhole
      split at hwhole
      · cases hwhole
      · obtain ⟨⟨w, rest⟩, hread, hwhole⟩ := bind_eq_ok.mp hwhole
        dsimp only at hwhole
        split at hwhole
        · cases hwhole
          exact (holdsOfRead hP _).value hread
        · cases hwhole
  · cases h
  · cases h

end LinkShelf.Json
