/-!
Entries: values in order, each under a key of its own. A value put under a key that is there takes
the place of the old one; a new key comes last.
-/

namespace LinkShelf

/-- Values with keys, in order. -/
abbrev Entries (K V : Type) := List (K × V)

namespace Entries

variable {K V : Type} [DecidableEq K]

/-- The value under a key. -/
def value? : Entries K V → K → Option V
  | [], _ => none
  | (k, v) :: rest, key => if k = key then some v else value? rest key

/-- The entries with a value put under a key. -/
def put : Entries K V → K → V → Entries K V
  | [], key, value => [(key, value)]
  | (k, v) :: rest, key, value =>
    if k = key then (key, value) :: rest else (k, v) :: put rest key value

/-- The entries without one key. -/
def drop (entries : Entries K V) (key : K) : Entries K V := entries.filter fun e => e.1 ≠ key

def values (entries : Entries K V) : List V := entries.map (·.2)

theorem value?_put_self (entries : Entries K V) (key : K) (value : V) :
    (entries.put key value).value? key = some value := by
  induction entries with
  | nil => simp [put, value?]
  | cons e rest ih =>
    unfold put
    split
    · simp [value?]
    · next h => simp [value?, h, ih]

theorem value?_put_other (entries : Entries K V) {key other : K} (value : V) (h : key ≠ other) :
    (entries.put key value).value? other = entries.value? other := by
  induction entries with
  | nil => simp [put, value?, h]
  | cons e rest ih =>
    unfold put
    split
    · next same => subst same; simp [value?, h]
    · simp [value?, ih]

theorem value?_drop_self (entries : Entries K V) (key : K) :
    (entries.drop key).value? key = none := by
  induction entries with
  | nil => rfl
  | cons e rest ih =>
    by_cases h : e.1 = key
    · simpa [drop, List.filter_cons, h] using ih
    · simpa [drop, List.filter_cons, h, value?] using ih

theorem value?_drop_other (entries : Entries K V) {key other : K} (h : key ≠ other) :
    (entries.drop key).value? other = entries.value? other := by
  induction entries with
  | nil => rfl
  | cons e rest ih =>
    by_cases same : e.1 = key
    · have : e.1 ≠ other := fun found => h (same ▸ found)
      simpa [drop, List.filter_cons, same, value?, h] using ih
    · by_cases found : e.1 = other
      · simp [drop, value?, found, Ne.symm h]
      · simpa [drop, List.filter_cons, same, value?, found] using ih

end Entries

end LinkShelf
